/-!
# Inflating

Compressed data is a row of blocks, read bit by bit from the least significant bit of each byte.  A
block is either stored as it is or a row of symbols in a prefix code.  A symbol is a literal byte,
the end of the block, or the length of a run that is copied from a given distance back in the
output.  The codes are fixed, or given at the front of the block by the lengths of their words.

Whoever reads the contents gets them in pieces, and how large these are depends on how much of the
input each byte needs.  So every byte that is written is kept together with the number of input
bytes that have been taken in by then.

Every loop here either walks down a list or uses up bits of the input, so the number of input bits
bounds how often it turns.
-/

namespace TrailSat.Gzip

/-- What can be wrong with compressed data. -/
inductive Corruption where
  | blockType
  | storedLength
  | tooManySymbols
  | codeLengths
  | lengthRepeat
  | noEndOfBlock
  | literalCode
  | distanceCode
  | literalSymbol
  | distanceSymbol
  | distanceTooFar
deriving Repr, DecidableEq

/-- The words in which corrupt data is reported. -/
def Corruption.message : Corruption → String
  | blockType => "invalid block type"
  | storedLength => "invalid stored block lengths"
  | tooManySymbols => "too many length or distance symbols"
  | codeLengths => "invalid code lengths set"
  | lengthRepeat => "invalid bit length repeat"
  | noEndOfBlock => "invalid code -- missing end-of-block"
  | literalCode => "invalid literal/lengths set"
  | distanceCode => "invalid distances set"
  | literalSymbol => "invalid literal/length code"
  | distanceSymbol => "invalid distance code"
  | distanceTooFar => "invalid distance too far back"

/-- Why inflating stops before the end of the data. -/
inductive InflateError where
  /-- The input ends too early. -/
  | truncated
  /-- The input is not what compression produces. -/
  | corrupt (what : Corruption)
deriving Repr, DecidableEq

/-- A byte of the contents. -/
structure Written where
  byte : UInt8
  /-- How many bytes of the input are taken in when the byte waits for a place to be written to. -/
  ready : Nat
  /-- How many bytes of the input are taken in when the byte has been written. -/
  taken : Nat

/-- Where inflating stands: the next bit of the input, and the output so far. -/
structure Progress where
  position : Nat
  output : Array Written

/-- The number of input bytes that have been taken in. -/
def Progress.taken (p : Progress) : Nat :=
  (p.position + 7) / 8

/-- A computation that reads bits and writes bytes.  What was written stays when it fails. -/
abbrev Inflater : Type → Type :=
  ExceptT InflateError (StateM Progress)

/-! ## Bits and bytes -/

/-- The next bit of the input. -/
def readBit (input : ByteArray) : Inflater Nat := do
  let position := (← get).position
  match input[position / 8]? with
  | none => throw .truncated
  | some byte =>
    modify fun p => { p with position := position + 1 }
    return (byte.toNat >>> (position % 8)) % 2

/-- A number of the given width, the least significant bit first. -/
def readBits (input : ByteArray) : Nat → Inflater Nat
  | 0 => return 0
  | width + 1 => do
    let low ← readBit input
    let high ← readBits input width
    return low + 2 * high

/-- Appends a byte to the output that the input taken in so far determines. -/
def writeByte (byte : UInt8) : Inflater Unit :=
  modify fun p => { p with output := p.output.push ⟨byte, p.taken, p.taken⟩ }

/-- Appends the next byte of the input to the output. -/
def writeStored (input : ByteArray) : Inflater Unit := do
  let ready := (← get).taken
  let byte ← readBits input 8
  modify fun p => { p with output := p.output.push ⟨byte.toUInt8, ready, p.taken⟩ }

/-- The byte of the output that stands `distance` bytes back. -/
def byteBack (distance : Nat) : Inflater UInt8 := do
  let found ← modifyGet fun p =>
    (if p.output.size < distance then none else p.output[p.output.size - distance]?, p)
  match found with
  | none => throw (.corrupt .distanceTooFar)
  | some written => return written.byte

/-- Appends `length` bytes of the output, starting `distance` bytes back. -/
def copyBack (distance : Nat) : Nat → Inflater Unit
  | 0 => return ()
  | length + 1 => do
    let byte ← byteBack distance
    writeByte byte
    copyBack distance length

/-! ## Prefix codes -/

/-- A prefix code in canonical form: the number of words of each length from 1 to the greatest, and
the symbols in the order of their words. -/
structure Code where
  counts : List Nat
  symbols : Array Nat

/-- The code in which each symbol has a word of the given length; no word has length 0.  Words have
at most 15 bits.  One bit has to be read even if there is no word at all. -/
def Code.ofLengths (lengths : List Nat) : Code where
  counts := (List.range (max 1 (lengths.foldl max 0))).map fun l => lengths.countP (· == l + 1)
  symbols := ((List.range 15).flatMap fun l =>
    lengths.zipIdx.filterMap fun (length, symbol) =>
      if length == l + 1 then some symbol else none).toArray

/-- How many more words of the greatest length fit; `none` if there are too many words. -/
def Code.room (code : Code) : Option Nat :=
  code.counts.foldl (fun room count =>
    room.bind fun free => if 2 * free < count then none else some (2 * free - count)) (some 1)

/-- Whether every row of bits begins with a word. -/
def Code.isComplete (code : Code) : Bool :=
  code.room == some 0

/-- Whether the code has no words. -/
def Code.isEmpty (code : Code) : Bool :=
  code.counts == [0]

/-- Whether the code has at most one word, of length one.  Such a code need not be complete. -/
def Code.isTiny (code : Code) : Bool :=
  code.isEmpty || code.counts == [1]

/-- Reads one word, which fails as soon as no word can begin with the bits read.  `word` is the word
so far, `first` the first word of its length, and `index` the number of shorter words. -/
def readWord (input : ByteArray) (symbols : Array Nat) (failure : Corruption) :
    (counts : List Nat) → (word first index : Nat) → Inflater Nat
  | [], _, _, _ => throw (.corrupt failure)
  | count :: longer, word, first, index => do
    let word := word + (← readBit input)
    if word < first + count then return symbols.getD (index + (word - first)) 0
    else readWord input symbols failure longer (2 * word) (2 * (first + count)) (index + count)

/-- Reads one symbol. -/
def Code.readSymbol (code : Code) (input : ByteArray) (failure : Corruption) : Inflater Nat :=
  readWord input code.symbols failure code.counts 0 0 0

/-! ## Blocks -/

/-- The least length and the number of further bits of the length symbols from 257 on. -/
def lengthTable : List (Nat × Nat) :=
  [(3, 0), (4, 0), (5, 0), (6, 0), (7, 0), (8, 0), (9, 0), (10, 0), (11, 1), (13, 1), (15, 1),
    (17, 1), (19, 2), (23, 2), (27, 2), (31, 2), (35, 3), (43, 3), (51, 3), (59, 3), (67, 4),
    (83, 4), (99, 4), (115, 4), (131, 5), (163, 5), (195, 5), (227, 5), (258, 0)]

/-- The least distance and the number of further bits of the distance symbols. -/
def distanceTable : List (Nat × Nat) :=
  [(1, 0), (2, 0), (3, 0), (4, 0), (5, 1), (7, 1), (9, 2), (13, 2), (17, 3), (25, 3), (33, 4),
    (49, 4), (65, 5), (97, 5), (129, 6), (193, 6), (257, 7), (385, 7), (513, 8), (769, 8),
    (1025, 9), (1537, 9), (2049, 10), (3073, 10), (4097, 11), (6145, 11), (8193, 12),
    (12289, 12), (16385, 13), (24577, 13)]

/-- The number that a table gives for a symbol. -/
def readFromTable (input : ByteArray) (table : List (Nat × Nat)) (symbol : Nat)
    (failure : Corruption) : Inflater Nat := do
  match table[symbol]? with
  | none => throw (.corrupt failure)
  | some (least, width) => return least + (← readBits input width)

/-- Reads the symbols of a block up to its end; at most `bound` are read. -/
def readBlock (input : ByteArray) (literals distances : Code) : (bound : Nat) → Inflater Unit
  | 0 => throw .truncated
  | bound + 1 => do
    let symbol ← literals.readSymbol input .literalSymbol
    if symbol < 256 then
      writeByte symbol.toUInt8
      readBlock input literals distances bound
    else if symbol == 256 then return ()
    else
      let length ← readFromTable input lengthTable (symbol - 257) .literalSymbol
      let distanceSymbol ← distances.readSymbol input .distanceSymbol
      let distance ← readFromTable input distanceTable distanceSymbol .distanceSymbol
      copyBack distance length
      readBlock input literals distances bound

/-- Copies bytes of the input. -/
def copyStored (input : ByteArray) : Nat → Inflater Unit
  | 0 => return ()
  | length + 1 => do
    writeStored input
    copyStored input length

/-- Reads a stored block: it begins at a byte, with its length and the complement of its length. -/
def readStored (input : ByteArray) : Inflater Unit := do
  modify fun p => { p with position := (p.position + 7) / 8 * 8 }
  let length ← readBits input 16
  let complement ← readBits input 16
  if length + complement != 65535 then throw (.corrupt .storedLength)
  copyStored input length

/-- The code of literals and lengths in blocks with fixed codes. -/
def fixedLiterals : Code :=
  Code.ofLengths (List.replicate 144 8 ++ List.replicate 112 9 ++ List.replicate 24 7 ++
    List.replicate 8 8)

/-- The code of distances in blocks with fixed codes. -/
def fixedDistances : Code :=
  Code.ofLengths (List.replicate 30 5)

/-- The order in which the lengths of the code for code lengths are given. -/
def lengthOrder : List Nat :=
  [16, 17, 18, 0, 8, 7, 9, 6, 10, 5, 11, 4, 12, 3, 13, 2, 14, 1, 15]

/-- Reads a symbol of the code for code lengths.  If that code has no words, every bit stands for
the symbol 0. -/
def readLengthSymbol (input : ByteArray) (code : Code) : Inflater Nat := do
  if code.isEmpty then
    let _ ← readBit input
    return 0
  else code.readSymbol input .codeLengths

/-- How far a symbol repeats a code length: the least number of times, and the number of further
bits that add to it. -/
def repeatTimes (symbol : Nat) : Nat × Nat :=
  if symbol == 16 then (3, 2) else if symbol == 17 then (3, 3) else (11, 7)

/-- The length that a symbol repeats: the last one, or zero. -/
def repeatedLength? (symbol : Nat) (known : List Nat) : Option Nat :=
  if symbol == 16 then known.head? else some 0

/-- Reads code lengths until there are `total`; `known` holds those read, the last one first.  A
symbol below 16 is a length; the others repeat the last length or zero. -/
def readLengths (input : ByteArray) (code : Code) (total : Nat) :
    (bound : Nat) → (known : List Nat) → Inflater (List Nat)
  | 0, known => return known.reverse
  | bound + 1, known => do
    if total ≤ known.length then return known.reverse
    let symbol ← readLengthSymbol input code
    if symbol < 16 then readLengths input code total bound (symbol :: known)
    else
      let (least, width) := repeatTimes symbol
      let times := least + (← readBits input width)
      match repeatedLength? symbol known with
      | none => throw (.corrupt .lengthRepeat)
      | some length =>
        if total < known.length + times then throw (.corrupt .lengthRepeat)
        readLengths input code total bound (List.replicate times length ++ known)

/-- Reads the codes at the front of a block. -/
def readCodes (input : ByteArray) : Inflater (Code × Code) := do
  let numLiterals := 257 + (← readBits input 5)
  let numDistances := 1 + (← readBits input 5)
  let numLengths := 4 + (← readBits input 4)
  if 286 < numLiterals || 30 < numDistances then throw (.corrupt .tooManySymbols)
  let widths ← (List.range numLengths).mapM fun _ => readBits input 3
  let given := lengthOrder.zip widths
  let code := Code.ofLengths ((List.range 19).map fun symbol =>
    ((given.find? (·.1 == symbol)).map (·.2)).getD 0)
  if !(code.isComplete || code.isEmpty) then throw (.corrupt .codeLengths)
  let lengths ← readLengths input code (numLiterals + numDistances) (numLiterals + numDistances) []
  if lengths.getD 256 0 == 0 then throw (.corrupt .noEndOfBlock)
  let literals := Code.ofLengths (lengths.take numLiterals)
  if !(literals.isComplete || literals.isTiny) then throw (.corrupt .literalCode)
  let distances := Code.ofLengths (lengths.drop numLiterals)
  if !(distances.isComplete || distances.isTiny) then throw (.corrupt .distanceCode)
  return (literals, distances)

/-- Reads blocks up to the last one; at most `bound` are read. -/
def readBlocks (input : ByteArray) : (bound : Nat) → Inflater Unit
  | 0 => throw .truncated
  | bound + 1 => do
    let last ← readBit input
    let kind ← readBits input 2
    if kind == 0 then readStored input
    else if kind == 1 then readBlock input fixedLiterals fixedDistances (8 * input.size)
    else if kind == 2 then
      let (literals, distances) ← readCodes input
      readBlock input literals distances (8 * input.size)
    else throw (.corrupt .blockType)
    if last == 1 then return () else readBlocks input bound

/-! ## All of it -/

/-- How compressed data ends. -/
inductive Ending where
  /-- With its last block, when so many bytes of the input have been taken in. -/
  | complete (taken : Nat)
  /-- Where it is seen to be corrupt, when so many bytes of the input have been taken in. -/
  | corrupt (what : Corruption) (taken : Nat)
  /-- The input ends too early. -/
  | truncated
deriving Repr, DecidableEq

/-- What compressed data comes to. -/
structure Inflated where
  /-- The contents up to the end. -/
  written : List Written
  ending : Ending

/-- Inflates the data that begins at a byte of the input. -/
def inflate (input : ByteArray) (start : Nat) : Inflated :=
  let (result, progress) := (readBlocks input (8 * input.size)).run.run ⟨8 * start, #[]⟩
  { written := progress.output.toList
    ending := match result with
      | .ok () => .complete progress.taken
      | .error (.corrupt what) => .corrupt what progress.taken
      | .error .truncated => .truncated }

end TrailSat.Gzip
