import TrailSat.Generate.Coverage

/-!
# Generating problems

A *planted* problem is built around a hidden assignment that satisfies every clause: each literal of
a clause agrees with the assignment with probability one half, and the last one does so in any case
if none did before it.  In a *uniform* problem all signs are drawn.  The variables of a clause are
distinct.

A planted problem mentions every variable; a uniform one does so if that is asked for.
-/

namespace TrailSat.Generate

variable {Gen : Type} [Generator Gen]

/-- A hidden assignment, and a problem that it satisfies. -/
structure Planted where
  assignment : List Bool
  clauses : List (List Int)
deriving Repr, DecidableEq

/-- A literal of the variable `v` that agrees with the given value, or one that does not. -/
def literalFor (v : Nat) (value agrees : Bool) : Int :=
  if value == agrees then v else -v

/-- The literals of a clause over the given variables, counted from 0.  `holds` tells whether a
literal before them agrees with the assignment. -/
def plantLiterals (assignment : List Bool) (holds : Bool) : List Nat → StateM Gen (List Int)
  | [] => return []
  | v :: rest => do
    let coin ← Generator.coin
    let agrees := coin || (rest.isEmpty && !holds)
    let literals ← plantLiterals assignment (holds || agrees) rest
    return literalFor (v + 1) (assignment.getD v false) agrees :: literals

/-- A clause that the assignment satisfies. -/
def plantClause (assignment : List Bool) (size : Int) : Sampler Gen (List Int) := do
  let vars ← choose assignment.length size
  (plantLiterals assignment false vars : StateM Gen (List Int))

/-- A row of items that are drawn one after the other. -/
def drawEach {Item : Type} (draw : Sampler Gen Item) : Nat → Sampler Gen (List Item)
  | 0 => return []
  | count + 1 => do
    let first ← draw
    let rest ← drawEach draw count
    return first :: rest

/-- The clauses after all variables have been covered. -/
def coverAll (assignment : Option (List Bool)) (numVars : Int) (clauses : List (List Int)) :
    Sampler Gen (List (List Int)) := do
  let covered ← (cover assignment numVars clauses : StateM Gen Covered)
  match covered.failure with
  | some e => throw e
  | none => return covered.clauses

/-- A planted problem. -/
def plantProblem (numVars numClauses size : Int) : Sampler Gen Planted := do
  if numVars < size then throw (.ofLongClause size numVars)
  let assignment ← drawRow numVars
  let clauses ← drawEach (plantClause assignment size) numClauses.toNat
  return ⟨assignment, ← coverAll (some assignment) numVars clauses⟩

/-- A clause with drawn variables and signs. -/
def uniformClause (numVars size : Int) : Sampler Gen (List Int) := do
  let vars ← choose numVars size
  let signs ← drawRow size
  return List.zipWith (fun v sign => literalFor (v + 1) true sign) vars signs

/-- A uniform problem. -/
def uniformProblem (numVars numClauses size : Int) (coverVars : Bool) :
    Sampler Gen (List (List Int)) := do
  if numVars < size then throw (.ofLongClause size numVars)
  let clauses ← drawEach (uniformClause numVars size) numClauses.toNat
  if coverVars then coverAll none numVars clauses else return clauses

end TrailSat.Generate
