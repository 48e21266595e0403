import TrailSat.Generate.Generator

/-!
# Random words

A stream of 32-bit words is a generator, which uses them one by one and counts those it has used.

Numbers come from a range by remainder, reals from an interval by scaling, and a choice without
replacement swaps the chosen items to the front of a pool.
-/

namespace TrailSat.Generate

/-- A stream of random words and how many of them have been used. -/
structure Draws where
  words : Nat → UInt32
  used : Nat := 0

/-- The stream that repeats a row of words for ever; the empty row stands for zeros. -/
def Draws.cycle (row : List UInt32) : Draws where
  words := fun index => row.getD (index % row.length) 0

/-- The next word. -/
def nextWord : StateM Draws Nat := fun draws =>
  ((draws.words draws.used).toNat, { draws with used := draws.used + 1 })

/-- A number below a positive bound. -/
def wordBelow (bound : Nat) : StateM Draws Nat := do
  let word ← nextWord
  return word % bound

/-- A real between two bounds. -/
def realOfWord (low high : Float) : StateM Draws Float := do
  let word ← nextWord
  return low + (high - low) * (Float.ofNat word / 4294967296.0)

/-- Whether the next word is in the lower half. -/
def coinOfWord : StateM Draws Bool := do
  let word ← nextWord
  return word < 0x80000000

/-- Independent truth values in a row. -/
def bitsOfWords : Nat → StateM Draws (List Bool)
  | 0 => return []
  | size + 1 => do
    let first ← wordBelow 2
    let rest ← bitsOfWords size
    return (first != 0) :: rest

/-! ## Choosing without replacement -/

/-- Takes the item with the given index out of a pool that begins with `first`, which moves to the
place of the item taken. -/
def takeOut (first : Nat) (rest : List Nat) : Nat → Nat × List Nat
  | 0 => (first, rest)
  | index + 1 => (rest.getD index first, rest.set index first)

/-- Takes items out of a pool one after the other. -/
def takeItems : Nat → List Nat → StateM Draws (List Nat)
  | 0, _ => return []
  | _ + 1, [] => return []
  | size + 1, first :: rest => do
    let index ← wordBelow (rest.length + 1)
    let (item, others) := takeOut first rest index
    let items ← takeItems size others
    return item :: items

/-- The words as a generator.  A row and a pool are lists, which have room as all rows have. -/
instance : Generator Draws where
  below := wordBelow
  real := realOfWord
  coin := coinOfWord
  row := bitsOfWords
  choice population size := takeItems size (List.range population)
  rowRoom := Value.rowBound
  choiceRoom := Value.rowBound

end TrailSat.Generate
