import TrailSat.Number.Binary

/-!
# Untyped values

Requests to a solver session, result records and the parts of a formula under construction are data
of no fixed type.  `Value` holds such data, with the fields of a record in their order, and this
file says what the library's operations see in it: a truth value, a number, a row of items or a
position in a row.
-/

namespace TrailSat

/-- A piece of untyped data. -/
inductive Value where
  | null
  | bool (b : Bool)
  | int (n : Int)
  | real (x : Float)
  | text (s : String)
  | list (items : List Value)
  | record (fields : List (String × Value))
deriving Inhabited, BEq, Repr

namespace Value

/-- Whether the value counts as true: it is neither null, nor false, nor zero, nor empty. -/
def isTruthy : Value → Bool
  | null => false
  | bool b => b
  | int n => n != 0
  | real x => x != 0
  | text s => !s.isEmpty
  | list items => !items.isEmpty
  | record fields => !fields.isEmpty

/-- The items of a row: those of a list, the characters of a text, the field names of a record. -/
def items? : Value → Option (List Value)
  | list items => some items
  | text s => some (s.toList.map fun c => text (String.singleton c))
  | record fields => some (fields.map fun field => text field.1)
  | _ => none

/-- The value as an integer that counts or selects something; a truth value counts as 1 or 0. -/
def index? : Value → Option Int
  | bool b => some (if b then 1 else 0)
  | int n => some n
  | _ => none

/-! ## Numbers -/

/-- How the value compares with an integer.  The outer `none` says that it is not a number; a NaN
is a number that compares with none. -/
def compareInt? (v : Value) (n : Int) : Option (Option Ordering) :=
  match v with
  | bool b => some (some (compare (if b then 1 else 0) n))
  | int m => some (some (compare m n))
  | real x =>
    match Number.Binary.ofFloat? x with
    | some b => some (some (compare b.signedFraction.1 (n * b.signedFraction.2)))
    | none => some (if x.isNaN then none else some (if x < 0 then .lt else .gt))
  | _ => none

/-- Whether the value is at least `n`; `none` if it is not a number. -/
def atLeast? (v : Value) (n : Int) : Option Bool :=
  (v.compareInt? n).map fun order => order == some .gt || order == some .eq

/-- Whether the value is less than `n`; `none` if it is not a number. -/
def lessThan? (v : Value) (n : Int) : Option Bool :=
  (v.compareInt? n).map (· == some .lt)

/-- Whether the value is a number equal to `n`. -/
def isInt (v : Value) (n : Int) : Bool :=
  v.compareInt? n == some (some .eq)

/-- Whether a number is greater than another. -/
def isAbove (v w : Value) : Bool :=
  match w with
  | bool b => v.compareInt? (if b then 1 else 0) == some (some .gt)
  | int n => v.compareInt? n == some (some .gt)
  | real y =>
    match v with
    | real x => y < x
    | bool b => w.compareInt? (if b then 1 else 0) == some (some .lt)
    | int n => w.compareInt? n == some (some .lt)
    | _ => false
  | _ => false

/-- The greater of two numbers; the first if neither is. -/
def greater (v w : Value) : Value :=
  if w.isAbove v then w else v

/-- The size of a number: a truth value becomes the integer 1 or 0. -/
def abs? : Value → Option Value
  | bool b => some (int (if b then 1 else 0))
  | int n => some (int n.natAbs)
  | real x => some (real x.abs)
  | _ => none

/-- Integers of this size are rounded to no finite double: the middle between the greatest one and
the power of two above it. -/
def doubleBound : Nat :=
  (1 <<< 1024) - (1 <<< 970)

/-- Whether the value is an integer that is rounded to no finite double. -/
def isBeyondDoubles : Value → Bool
  | int n => doubleBound ≤ n.natAbs
  | _ => false

/-- The value as a double; an integer is rounded. -/
def toReal? : Value → Option Float
  | bool b => some (if b then 1 else 0)
  | int n => some (Float.ofInt n)
  | real x => some x
  | _ => none

/-! ## Positions in a row -/

/-- Why a value does not select an item of a row. -/
inductive SelectError where
  /-- The value is not an integer. -/
  | notInteger
  /-- The row has no such item. -/
  | outOfRange
  /-- The integer is beyond the size of any row. -/
  | tooLarge
deriving Repr, DecidableEq

/-- The place that an integer selects in a row of `length` items: from the front, or from the back
if it is negative. -/
def place? (length : Nat) (n : Int) : Option Nat :=
  let place := if n < 0 then n + length else n
  if 0 ≤ place ∧ place < length then some place.toNat else none

/-- Indices lie below this bound, and not below its opposite. -/
def indexBound : Int :=
  0x8000000000000000

/-- The number of items from which on a row takes up more bytes, eight for each item, than an index
can count.  There is no room for such a row anywhere. -/
def rowBound : Nat :=
  indexBound.toNat / 8

/-- The place that a value selects in a row of `length` items. -/
def placeIn (length : Nat) (v : Value) : Except SelectError Nat :=
  match v.index? with
  | none => .error .notInteger
  | some n =>
    match place? length n with
    | some place => .ok place
    -- what selects no item may be beyond the items of any row
    | none => .error (if n < -indexBound ∨ indexBound ≤ n then .tooLarge else .outOfRange)

/-- The item of a row that a value selects. -/
def select {Item : Type} (row : List Item) (v : Value) : Except SelectError Item := do
  let place ← v.placeIn row.length
  match row[place]? with
  | none => .error .outOfRange
  | some item => .ok item

end Value

end TrailSat
