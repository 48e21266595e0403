import TrailSat.Flat
import TrailSat.Generate.Problem
import TrailSat.Number.Binary

/-!
# Buckets of problems

A bucket is a file of problems in flat text, one a line, whose numbers of variables lie in a common
range.  For each problem the number of variables and the ratio of clauses to variables are drawn;
the number of clauses is their product, rounded, and at least one.

What the problems are to be like may also be said by untyped data, in an `Order`.  Each piece of it
is looked at only when it is needed.
-/

namespace TrailSat.Generate

variable {Gen : Type} [Generator Gen]

/-- What the problems of a bucket are like. -/
structure Bucket where
  /-- The least number of variables. -/
  varsMin : Int
  /-- The greatest number of variables. -/
  varsMax : Int
  /-- The number of problems. -/
  samples : Int
  /-- The least ratio of clauses to variables. -/
  ratioMin : Float
  /-- The greatest ratio of clauses to variables. -/
  ratioMax : Float
  /-- The number of literals in a clause. -/
  clauseSize : Int
  /-- Whether the problems are planted; otherwise they are uniform. -/
  planted : Bool

namespace Bucket

/-- The name of the file for problems between two numbers of variables. -/
def fileNameFor (planted : Bool) (varsMin varsMax : String) : String :=
  (if planted then "sat" else "rand") ++ "_" ++ varsMin ++ "_" ++ varsMax ++ ".txt"

/-- The name of the bucket's file. -/
def fileName (bucket : Bucket) : String :=
  fileNameFor bucket.planted (toString bucket.varsMin) (toString bucket.varsMax)

/-- Whether the numbers in the name have few enough digits to be written. -/
def hasFileName (bucket : Bucket) : Bool :=
  Number.isWritable bucket.varsMin && Number.isWritable bucket.varsMax

/-- The number of clauses for a ratio: the product with the number of variables, rounded to the
nearest integer, a half to the even one, and at least one. -/
def clauseCount (ratio : Float) (numVars : Int) : Except SamplingError Int :=
  let product := ratio * Float.ofInt numVars
  match Number.Binary.ofFloat? product with
  | some b => .ok (max 1 b.round)
  | none => .error (if product.isNaN then .sizeNotNumber else .sizeInfinite)

/-- A problem of a bucket. -/
structure Problem where
  /-- The number of variables that was drawn. -/
  numVars : Int
  clauses : List (List Int)
deriving Repr, DecidableEq

/-- The clauses of a problem with the given sizes. -/
def drawClauses (planted : Bool) (numVars numClauses clauseSize : Int) :
    Sampler Gen (List (List Int)) :=
  if planted then do
    let planted ← plantProblem numVars numClauses clauseSize
    return planted.clauses
  else uniformProblem numVars numClauses clauseSize true

/-- One problem of the bucket. -/
def drawProblem (bucket : Bucket) : Sampler Gen Problem := do
  let numVars ← drawInt bucket.varsMin (bucket.varsMax + 1)
  let ratio ← (Generator.real bucket.ratioMin bucket.ratioMax : StateM Gen Float)
  let numClauses ← clauseCount ratio numVars
  return ⟨numVars, ← drawClauses bucket.planted numVars numClauses bucket.clauseSize⟩

/-- Problems that were drawn one after the other, up to the first that could not be. -/
structure Drawn where
  problems : List Problem
  failure : Option SamplingError
deriving Repr, DecidableEq

/-- Draws problems until there are enough or one fails. -/
def drawProblems (draw : Sampler Gen Problem) : Nat → StateM Gen Drawn
  | 0 => return ⟨[], none⟩
  | count + 1 => do
    match ← draw.run with
    | .error e => return ⟨[], some e⟩
    | .ok problem =>
      let rest ← drawProblems draw count
      return { rest with problems := problem :: rest.problems }

/-- Draws as many problems as are asked for; none, if their number is negative.  The number is also
shown to the user, so it must not have too many digits. -/
def drawMany (draw : Sampler Gen Problem) (samples : Int) : StateM Gen Drawn :=
  if !Number.isWritable samples then return ⟨[], some .unwritable⟩
  else if Value.indexBound ≤ samples then return ⟨[], some .tooManyProblems⟩
  else drawProblems draw samples.toNat

/-- The problems of the bucket. -/
def draw (bucket : Bucket) : StateM Gen Drawn :=
  drawMany bucket.drawProblem bucket.samples

/-- The text of a bucket's file. -/
def text (problems : List Problem) : String :=
  String.join (problems.map fun problem => Flat.write problem.clauses ++ "\n")

end Bucket

/-! ## Orders -/

/-- What the problems of a bucket are to be like, in untyped data. -/
structure Order where
  varsMin : Value
  varsMax : Value
  samples : Value
  ratioMin : Value
  ratioMax : Value
  clauseSize : Value
  planted : Bool

namespace Order

/-- The order for a bucket. -/
def ofBucket (bucket : Bucket) : Order where
  varsMin := .int bucket.varsMin
  varsMax := .int bucket.varsMax
  samples := .int bucket.samples
  ratioMin := .real bucket.ratioMin
  ratioMax := .real bucket.ratioMax
  clauseSize := .int bucket.clauseSize
  planted := bucket.planted

/-- The name of the file. -/
def fileName (order : Order) : String :=
  Bucket.fileNameFor order.planted order.varsMin.plain order.varsMax.plain

/-- Whether the numbers in the name have few enough digits to be written. -/
def hasFileName (order : Order) : Bool :=
  order.varsMin.isWritable && order.varsMax.isWritable

/-- What is read of a value, if it can be read. -/
def need {Kind : Type} (read : Option Kind) : Sampler Gen Kind :=
  match read with
  | some v => return v
  | none => throw .notNumber

/-- A ratio that was ordered. -/
def needRatio (ratio : Value) : Sampler Gen Float :=
  if ratio.isBeyondDoubles then throw .ratioTooLarge else need ratio.toReal?

/-- One problem that was ordered. -/
def drawProblem (order : Order) : Sampler Gen Bucket.Problem := do
  let varsMax ← need order.varsMax.index?
  let varsMin ← need order.varsMin.index?
  let numVars ← drawInt varsMin (varsMax + 1)
  let ratioMin ← needRatio order.ratioMin
  let ratioMax ← needRatio order.ratioMax
  let ratio ← (Generator.real ratioMin ratioMax : StateM Gen Float)
  let numClauses ← Bucket.clauseCount ratio numVars
  let clauseSize ← need order.clauseSize.index?
  return ⟨numVars, ← Bucket.drawClauses order.planted numVars numClauses clauseSize⟩

/-- The problems that were ordered. -/
def draw (order : Order) : StateM Gen Bucket.Drawn :=
  match order.samples.index? with
  | none => return ⟨[], some .notNumber⟩
  | some samples => Bucket.drawMany order.drawProblem samples

end Order

end TrailSat.Generate
