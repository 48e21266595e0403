/-!
# Checksums

The 32-bit cyclic redundancy check of the polynomial `0xEDB88320`, bits taken least significant
first.
-/

namespace TrailSat.Gzip

/-- The remainder after one bit has been shifted out. -/
def checksumBit (crc : UInt32) : UInt32 :=
  if crc &&& 1 == 1 then (crc >>> 1) ^^^ 0xEDB88320 else crc >>> 1

/-- The remainder after one byte has been taken in. -/
def checksumByte (crc : UInt32) (byte : UInt8) : UInt32 :=
  (List.range 8).foldl (fun crc _ => checksumBit crc) (crc ^^^ byte.toUInt32)

/-- The checksum of a row of bytes. -/
def checksum (bytes : ByteArray) : UInt32 :=
  (bytes.foldl checksumByte 0xFFFFFFFF) ^^^ 0xFFFFFFFF

end TrailSat.Gzip
