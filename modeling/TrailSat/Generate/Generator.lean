import TrailSat.Number.Integer
import TrailSat.Value.Basic

/-!
# Sources of random values

All randomness comes from a `Generator`, which answers a few kinds of requests and changes with each
answer.  A `Sampler` asks it one request after the other and may fail; how far the generator has come
is kept also then.

The requests are made through `drawInt`, `drawRow` and `choose`, which refuse those that no generator
can answer.  What a generator has no room for is refused as well.
-/

namespace TrailSat.Generate

/-- A source of random values. -/
class Generator (Gen : Type) where
  /-- A number below a bound. -/
  below (bound : Nat) : StateM Gen Nat
  /-- A real between two bounds. -/
  real (low high : Float) : StateM Gen Float
  /-- True with probability one half. -/
  coin : StateM Gen Bool
  /-- Truth values in a row. -/
  row (size : Nat) : StateM Gen (List Bool)
  /-- As many different numbers below a bound, in random order. -/
  choice (population size : Nat) : StateM Gen (List Nat)
  /-- The size from which on there is no room for a row of truth values. -/
  rowRoom : Nat
  /-- The bound from which on no numbers below it can be chosen. -/
  choiceRoom : Nat

/-- Why sampling fails. -/
inductive SamplingError where
  /-- The range to draw from is empty. -/
  | emptyRange
  /-- A negative number of items is asked for. -/
  | negativeSize
  /-- Items are asked for, but there are none to choose from. -/
  | emptyPopulation
  /-- More items are asked for than there are. -/
  | smallPopulation
  /-- Clauses are to have more literals than there are variables. -/
  | clauseTooLong (size numVars : Int)
  /-- A variable occurs nowhere and no literal can be spared for it. -/
  | noSpareLiteral
  /-- The assignment has no value for a variable. -/
  | shortAssignment
  /-- A number of clauses is not a number. -/
  | sizeNotNumber
  /-- A number of clauses is infinite. -/
  | sizeInfinite
  /-- More problems are asked for than can be counted. -/
  | tooManyProblems
  /-- A ratio is an integer beyond all doubles. -/
  | ratioTooLarge
  /-- What a problem should be like is not given by numbers. -/
  | notNumber
  /-- The generator has no room for what is asked for. -/
  | noRoom
  /-- A number that has to be written down has too many digits. -/
  | unwritable
deriving Repr, DecidableEq

namespace SamplingError

/-- The words in which the error is reported. -/
def message : SamplingError → String
  | emptyRange => "low >= high"
  | negativeSize => "negative dimensions are not allowed"
  | emptyPopulation => "a must be a positive integer unless no samples are taken"
  | smallPopulation =>
    "Cannot take a larger sample than population when replace is False"
  | clauseTooLong size numVars =>
    "clause_size " ++ toString size ++ " exceeds num_vars " ++ toString numVars
  | noSpareLiteral =>
    "No clause found to safely replace a variable with an unused variable."
  | shortAssignment => "list index out of range"
  | sizeNotNumber => "cannot convert float NaN to integer"
  | sizeInfinite => "cannot convert float infinity to integer"
  | tooManyProblems => "Python int too large to convert to C ssize_t"
  | ratioTooLarge => "int too large to convert to float"
  | notNumber => "a number is needed"
  | noRoom => ""
  | unwritable => Number.unwritableMessage

/-- The refusal of clauses with more literals than there are variables, if the two numbers can be
written. -/
def ofLongClause (size numVars : Int) : SamplingError :=
  if Number.isWritable size && Number.isWritable numVars then clauseTooLong size numVars
  else unwritable

end SamplingError

/-- A computation that asks a generator for random values and may fail. -/
abbrev Sampler (Gen : Type) : Type → Type :=
  ExceptT SamplingError (StateM Gen)

variable {Gen : Type} [Generator Gen]

/-- An integer from `low` up to but not including `high`. -/
def drawInt (low high : Int) : Sampler Gen Int := do
  if high ≤ low then throw .emptyRange
  let offset ← (Generator.below (high - low).toNat : StateM Gen Nat)
  return low + offset

/-- A truth value. -/
def drawBool : StateM Gen Bool := do
  let bit ← Generator.below 2
  return bit != 0

/-- A row of truth values of a size that may turn out negative. -/
def drawRow (size : Int) : Sampler Gen (List Bool) := do
  if size < 0 then throw .negativeSize
  if Generator.rowRoom Gen ≤ size then throw .noRoom
  (Generator.row size.toNat : StateM Gen (List Bool))

/-- Chooses different numbers below `population`, in random order. -/
def choose (population size : Int) : Sampler Gen (List Nat) := do
  if population = 0 ∧ size ≠ 0 then throw .emptyPopulation
  if size < 0 then throw .negativeSize
  if population < size then throw .smallPopulation
  if Generator.choiceRoom Gen ≤ population then throw .noRoom
  (Generator.choice population.toNat size.toNat : StateM Gen (List Nat))

end TrailSat.Generate
