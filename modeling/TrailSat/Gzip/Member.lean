import TrailSat.Gzip.Checksum
import TrailSat.Gzip.Chunk
import TrailSat.Text.Quoted

/-!
# Gzip files

A gzip file is a row of members, each with a header, compressed data, and the checksum and length
of the contents.  Members may be padded with zero bytes, and a file without members is empty.

The contents are handed on in chunks, and no chunk holds bytes of two members.  Corrupt data loses
the chunk in which it is seen; when the data ends too early, or the checksum or length is wrong,
everything up to there has been handed on.

`store` is the simplest writer: it makes one member with stored blocks.
-/

namespace TrailSat.Gzip

/-- Why a file is not a gzip file. -/
inductive Fault where
  /-- A member does not begin with the two magic bytes. -/
  | notGzip (magic : List UInt8)
  /-- The compression method is unknown. -/
  | unknownMethod
  /-- The checksum of the contents is not the one given. -/
  | badChecksum (given found : UInt32)
  /-- The length of the contents is not the one given. -/
  | badLength
  /-- The file ends too early. -/
  | truncated
  /-- The compressed data is corrupt. -/
  | corrupt (what : Corruption)
deriving Repr, DecidableEq

/-- A number in hexadecimal, without leading zeros. -/
def hexText (n : Nat) : String :=
  String.ofList ('0' :: 'x' :: Nat.toDigits 16 n)

/-- The words in which a fault is reported. -/
def Fault.message : Fault → String
  | notGzip magic => "Not a gzipped file (" ++ Text.quoteBytes magic ++ ")"
  | unknownMethod => "Unknown compression method"
  | badChecksum given found =>
    "CRC check failed " ++ hexText given.toNat ++ " != " ++ hexText found.toNat
  | badLength => "Incorrect length of data produced"
  | truncated => "Compressed file ended before the end-of-stream marker was reached"
  | corrupt what => "Error -3 while decompressing data: " ++ what.message

/-- The contents of a file, as far as they could be read. -/
structure Contents where
  /-- What has been handed on, in order. -/
  chunks : List (List UInt8)
  /-- What ended the reading early. -/
  fault : Option Fault

/-! ## Members -/

/-- The number in `width` bytes, the least significant byte first; `none` beyond the end. -/
def littleEndian? (input : ByteArray) (start : Nat) : (width : Nat) → Option Nat
  | 0 => some 0
  | width + 1 => do
    let byte ← input[start]?
    let rest ← littleEndian? input (start + 1) width
    some (byte.toNat + 256 * rest)

/-- The first place from `start` on that is behind a zero byte, or the end of the input. -/
def afterZero (input : ByteArray) (start : Nat) : Nat :=
  match (input.extract start input.size).toList.findIdx? (· == 0) with
  | some offset => start + offset + 1
  | none => input.size

/-- Where the compressed data begins in the member at `start`. -/
def dataStart (input : ByteArray) (start : Nat) : Except Fault Nat := do
  let magic := (input.extract start (start + 2)).toList
  if magic != [0x1F, 0x8B] then throw (.notGzip magic)
  let some _ := littleEndian? input (start + 2) 8 | throw .truncated
  let some method := littleEndian? input (start + 2) 1 | throw .truncated
  let some flags := littleEndian? input (start + 3) 1 | throw .truncated
  if method != 8 then throw .unknownMethod
  let mut place := start + 10
  if flags / 4 % 2 == 1 then
    let some length := littleEndian? input place 2 | throw .truncated
    place := place + 2 + length
    if input.size < place then throw .truncated
  if flags / 8 % 2 == 1 then place := afterZero input place
  if flags / 16 % 2 == 1 then place := afterZero input place
  if flags / 2 % 2 == 1 then
    let some _ := littleEndian? input place 2 | throw .truncated
    place := place + 2
  return place

/-- The first place from `start` on that holds another byte than zero. -/
def afterPadding (input : ByteArray) (start : Nat) : Nat :=
  start + ((input.extract start input.size).toList.takeWhile (· == 0)).length

/-- The fault that data which was not restored amounts to. -/
def Fault.ofInflateError : InflateError → Fault
  | .truncated => truncated
  | .corrupt what => corrupt what

/-- Checks what follows the data of a member: the checksum and the length of the contents.  The
answer is the place of the next member. -/
def checkTrailer (input : ByteArray) (contents : ByteArray) (place : Nat) : Except Fault Nat := do
  let some crc := littleEndian? input place 4 | throw .truncated
  let some length := littleEndian? input (place + 4) 4 | throw .truncated
  let found := checksum contents
  if crc != found.toNat then throw (.badChecksum crc.toUInt32 found)
  if length != contents.size % 0x100000000 then throw .badLength
  return afterPadding input (place + 8)

/-- A member that begins at `start`, as far as it can be read, and the place of the next one. -/
def readMember (input : ByteArray) (start : Nat) : List (List UInt8) × Except Fault Nat :=
  match dataStart input start with
  | .error fault => ([], .error fault)
  | .ok place =>
    let data := inflate input place
    let read := data.chunks input.size place
    match read.ending with
    | .error e => (read.chunks, .error (.ofInflateError e))
    | .ok place =>
      let contents : ByteArray := ⟨(data.written.map Written.byte).toArray⟩
      (read.chunks, checkTrailer input contents place)

/-- The contents of the members from `start` on.  At most `bound` members are read. -/
def readMembers (input : ByteArray) (start : Nat) : (bound : Nat) → Contents
  | 0 => ⟨[], none⟩
  | bound + 1 =>
    if input.size ≤ start then ⟨[], none⟩
    else match readMember input start with
      | (chunks, .error fault) => ⟨chunks, some fault⟩
      | (chunks, .ok next) =>
        let others := readMembers input next bound
        { others with chunks := chunks ++ others.chunks }

/-- The contents of a gzip file. -/
def read (input : ByteArray) : Contents :=
  readMembers input 0 (input.size + 1)

/-! ## Writing -/

/-- The `width` bytes of a number, the least significant first. -/
def bytesOf (n : Nat) (width : Nat) : List UInt8 :=
  (List.range width).map fun place => ((n >>> (8 * place)) % 256).toUInt8

theorem length_drop_lt {bytes : List UInt8} {size : Nat} (hsize : 0 < size)
    (hbytes : ¬ bytes.length ≤ size) : (bytes.drop size).length < bytes.length := by
  rw [List.length_drop]
  omega

/-- Stored blocks with the given bytes; all but the last hold as many as a block can. -/
def storedBlocks (bytes : List UInt8) : List UInt8 :=
  if h : bytes.length ≤ 65535 then
    1 :: bytesOf bytes.length 2 ++ bytesOf (65535 - bytes.length) 2 ++ bytes
  else
    have hshorter := length_drop_lt (by omega) h
    0 :: bytesOf 65535 2 ++ bytesOf 0 2 ++ bytes.take 65535 ++ storedBlocks (bytes.drop 65535)
termination_by bytes.length
decreasing_by exact hshorter

/-- A gzip file with the given contents. -/
def store (contents : ByteArray) : ByteArray :=
  let header : List UInt8 := [0x1F, 0x8B, 8, 0, 0, 0, 0, 0, 0, 255]
  ⟨(header ++ storedBlocks contents.toList ++ bytesOf (checksum contents).toNat 4 ++
    bytesOf contents.size 4).toArray⟩

end TrailSat.Gzip
