/-!
# Lines and UTF-8

A text is stored as bytes in UTF-8 and read as lines.  A line ends at a line feed, a carriage
return, or the two together; what follows the last line end is a line only if it is not empty.

Bytes are decoded strictly and in chunks.  A byte that cannot follow those before it spoils the
chunk in which it lies, so only the lines completed in earlier chunks can be read; bytes that end
inside a character spoil nothing before them.  Surrogates are no characters, but it takes the byte
after the first two of one to spoil a chunk.
-/

namespace TrailSat.Text

/-! ## Cutting into lines -/

/-- The lines of a text, the last one first, and the characters of the line under construction, the
last one first. -/
def cutLines (done : List String) (current : List Char) : List Char → List String × List Char
  | [] => (done, current)
  | '\r' :: '\n' :: rest => cutLines (String.ofList current.reverse :: done) [] rest
  | '\r' :: rest => cutLines (String.ofList current.reverse :: done) [] rest
  | '\n' :: rest => cutLines (String.ofList current.reverse :: done) [] rest
  | c :: rest => cutLines done (c :: current) rest

/-- The lines of a text, without their ends. -/
def lines (cs : List Char) : List String :=
  let (done, current) := cutLines [] [] cs
  (if current.isEmpty then done else String.ofList current.reverse :: done).reverse

/-- The lines whose ends have certainly been seen, when the text may go on: a final carriage return
may still turn out to be half of a line end. -/
def completeLines (cs : List Char) : List String :=
  let settled := if cs.getLast? == some '\r' then cs.dropLast else cs
  (cutLines [] [] settled).1.reverse

/-! ## Decoding -/

/-- The state of decoding. -/
structure Decoder where
  /-- The decoded characters, the last one first. -/
  chars : List Char := []
  /-- How many bytes of a character are still to come. -/
  missing : Nat := 0
  /-- The range in which the next of them must lie. -/
  low : Nat := 0
  high : Nat := 0
  /-- The number made up of the bytes of the character so far. -/
  value : Nat := 0

/-- Waits for further bytes of a character. -/
def Decoder.await (d : Decoder) (missing low high value : Nat) : Decoder :=
  { d with missing := missing, low := low, high := high, value := value }

/-- Whether a number is what the first two bytes of a surrogate make up. -/
def beginsSurrogate (value : Nat) : Bool :=
  0x360 ≤ value && value < 0x380

/-- The decoder after one more byte, or `none` if that byte cannot stand there. -/
def Decoder.next? (d : Decoder) (byte : Nat) : Option Decoder :=
  match d.missing with
  | 0 =>
    if byte < 0x80 then some { d with chars := Char.ofNat byte :: d.chars }
    else if 0xC2 ≤ byte ∧ byte ≤ 0xDF then some (d.await 1 0x80 0xBF (byte - 0xC0))
    else if byte = 0xE0 then some (d.await 2 0xA0 0xBF 0)
    else if 0xE1 ≤ byte ∧ byte ≤ 0xEF then some (d.await 2 0x80 0xBF (byte - 0xE0))
    else if byte = 0xF0 then some (d.await 3 0x90 0xBF 0)
    else if byte = 0xF4 then some (d.await 3 0x80 0x8F (byte - 0xF0))
    else if 0xF1 ≤ byte ∧ byte ≤ 0xF3 then some (d.await 3 0x80 0xBF (byte - 0xF0))
    else none
  | missing + 1 =>
    if d.low ≤ byte ∧ byte ≤ d.high then
      let value := 64 * d.value + (byte - 0x80)
      if missing = 0 then some { chars := Char.ofNat value :: d.chars }
      else if beginsSurrogate value then some (d.await missing 1 0 value)
      else some (d.await missing 0x80 0xBF value)
    else none

/-- The decoder after some bytes, or `none` if one of them cannot stand where it does. -/
def Decoder.take? (d : Decoder) : List UInt8 → Option Decoder
  | [] => some d
  | byte :: rest =>
    match d.next? byte.toNat with
    | none => none
    | some next => next.take? rest

/-- The decoder before the first chunk that is spoiled, and whether there is none. -/
def Decoder.takeChunks (d : Decoder) : List (List UInt8) → Decoder × Bool
  | [] => (d, true)
  | chunk :: rest =>
    match d.take? chunk with
    | none => (d, false)
    | some next => next.takeChunks rest

/-- The characters decoded so far. -/
def Decoder.text (d : Decoder) : List Char :=
  d.chars.reverse

/-! ## Reading lines -/

/-- The number of bytes of a plain file that are decoded at a time. -/
def chunkSize : Nat := 8192

/-- Cuts bytes into chunks. -/
def chunks (bytes : List UInt8) : List (List UInt8) :=
  if _ : bytes.isEmpty then []
  else bytes.take chunkSize :: chunks (bytes.drop chunkSize)
termination_by bytes.length
decreasing_by
  have hpos : 0 < bytes.length := by
    cases bytes with
    | nil => contradiction
    | cons first rest => exact Nat.succ_pos _
  rw [List.length_drop, chunkSize]
  omega

/-- What can be read of bytes: all lines, or, if not all bytes can be decoded, those completed
before the trouble. -/
structure ReadLines where
  lines : List String
  /-- Whether all bytes were decoded. -/
  intact : Bool

/-- The lines in chunks that are all there is (`final`) or that something may follow. -/
def readLines (chunks : List (List UInt8)) (final : Bool) : ReadLines :=
  let (decoder, intact) := Decoder.takeChunks {} chunks
  if intact && final && decoder.missing == 0 then ⟨lines decoder.text, true⟩
  else ⟨completeLines decoder.text, intact && !final⟩

end TrailSat.Text
