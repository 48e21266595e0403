import TrailSat.Gzip.Inflate

/-!
# Contents in chunks

The contents of compressed data are handed on in chunks.  For each chunk the decoder is shown the
next bytes of the input, at most `chunkSize` of them, and it writes at most as many bytes.  It goes
on until it has no more input or no place to write to, so a chunk also ends where the input shown
does not determine another byte.  A decoder that has written nothing is shown more input.

Data that is seen to be corrupt loses the chunk that is being written, but no chunk before it.  Most
corruption is seen by a decoder even if it has no place to write to; only a distance that is too
large is not seen before the copying begins.
-/

namespace TrailSat.Gzip

/-- The greatest number of bytes that the decoder is shown, or writes, at a time. -/
def chunkSize : Nat := 8192

/-- Takes bytes as long as there is room for them and the input up to `limit` determines them.  The
answer holds these bytes and the others. -/
def fill (limit : Nat) : (room : Nat) → List Written → List UInt8 × List Written
  | 0, rest => ([], rest)
  | _ + 1, [] => ([], [])
  | room + 1, next :: rest =>
    if next.taken ≤ limit then
      let (chunk, others) := fill limit room rest
      (next.byte :: chunk, others)
    else ([], next :: rest)

theorem length_fill (limit room : Nat) (written : List Written) :
    (fill limit room written).1.length + (fill limit room written).2.length = written.length := by
  induction room generalizing written with
  | zero => simp [fill]
  | succ room ih =>
    cases written with
    | nil => simp [fill]
    | cons next rest =>
      by_cases htaken : next.taken ≤ limit
      · have hrest := ih rest
        simp only [fill, htaken, if_true, List.length_cons]
        omega
      · simp [fill, htaken]

/-- What a decoder has found out after it wrote a chunk. -/
inductive Finding where
  /-- It has reached the end of the data, when so many bytes of the input were taken in. -/
  | finished (taken : Nat)
  /-- The data is corrupt. -/
  | corrupt (what : Corruption)
  /-- It has taken in so many bytes of the input and waits. -/
  | waiting (taken : Nat)

/-- What a decoder finds out that has written all bytes, is shown the input up to `limit`, and may
have room for another byte. -/
def Ending.find (limit : Nat) (hasRoom : Bool) : Ending → Finding
  | .complete taken => if taken ≤ limit then .finished taken else .waiting limit
  | .corrupt what taken =>
    if limit < taken then .waiting limit
    else if what = .distanceTooFar ∧ !hasRoom then .waiting taken
    else .corrupt what
  | .truncated => .waiting limit

/-- What a decoder finds out after a chunk, when the given bytes are still to be written. -/
def Inflated.find (data : Inflated) (limit : Nat) (hasRoom : Bool) : Finding :=
  match data.written with
  | [] => data.ending.find limit hasRoom
  | next :: _ => .waiting (min next.ready limit)

/-- The chunks of compressed data. -/
structure Chunks where
  chunks : List (List UInt8)
  /-- Where the data ends, or why it does not. -/
  ending : Except InflateError Nat

/-- Puts a chunk in front. -/
def Chunks.cons (chunk : List UInt8) (others : Chunks) : Chunks :=
  { others with chunks := chunk :: others.chunks }

/-- The chunks of data of which `taken` bytes have been taken in already, out of an input of `size`
bytes. -/
def Inflated.chunks (size taken : Nat) (data : Inflated) : Chunks :=
  let limit := min (taken + chunkSize) size
  let filled := fill limit chunkSize data.written
  have : filled.1.length + filled.2.length = data.written.length :=
    length_fill limit chunkSize data.written
  let rest : Inflated := { data with written := filled.2 }
  match rest.find limit (decide (filled.1.length < chunkSize)) with
  | .finished place => ⟨if filled.1.isEmpty then [] else [filled.1], .ok place⟩
  | .corrupt what => ⟨[], .error (.corrupt what)⟩
  | .waiting place =>
    if _ : filled.1.length = 0 then
      if _ : taken < limit then rest.chunks size limit
      else ⟨[], .error .truncated⟩
    else (rest.chunks size place).cons filled.1
termination_by (data.written.length, size - taken)
decreasing_by
  · have hsame : filled.2.length = data.written.length := by omega
    rw [Prod.lex_def]
    exact Or.inr ⟨hsame, by omega⟩
  · rw [Prod.lex_def]
    exact Or.inl (by show filled.2.length < data.written.length; omega)

end TrailSat.Gzip
