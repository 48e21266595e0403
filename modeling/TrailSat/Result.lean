import TrailSat.Solver

/-!
# Results of solving

A verdict has a short label, a word for the terminal and an exit status.  A result is written as the
label, followed for a satisfiable formula by the model on a line of its own: one literal for each
variable, unassigned variables counting as false, and a final zero.

Outside this library truth values and verdicts are coded by numbers: 0 is true or satisfiable, 1 is
false or unsatisfiable, and anything else is unknown.
-/

namespace TrailSat

namespace Verdict

/-- The label of a verdict in results and records. -/
def label : Verdict → String
  | sat => "SAT"
  | unsat => "UNSAT"
  | undecided => "INDET"

/-- The word for a verdict on the terminal. -/
def word : Verdict → String
  | sat => "SATISFIABLE"
  | unsat => "UNSATISFIABLE"
  | undecided => "INDETERMINATE"

/-- The exit status that tells a verdict. -/
def exitStatus : Verdict → Nat
  | sat => 10
  | unsat => 20
  | undecided => 0

/-- The verdict that a code stands for. -/
def ofCode (code : Value) : Verdict :=
  if code.isInt 0 then sat else if code.isInt 1 then unsat else undecided

/-- The code of a verdict. -/
def code : Verdict → Nat
  | sat => 0
  | unsat => 1
  | undecided => 2

end Verdict

/-! ## Models -/

/-- The entry of a model that a code stands for. -/
def modelEntryOfCode (code : Value) : Option Bool :=
  if code.isInt 0 then some true else if code.isInt 1 then some false else none

/-- The code of an entry of a model. -/
def modelEntryCode : Option Bool → Nat
  | some true => 0
  | some false => 1
  | none => 2

/-- The literals of a model, one for each variable. -/
def modelLiterals (model : List (Option Bool)) : List Int :=
  model.zipIdx.map fun (entry, index) => State.literalOf (index + 1) (entry == some true)

/-- A model on one line. -/
def modelLine (model : List (Option Bool)) : String :=
  " ".intercalate ((modelLiterals model ++ [0]).map toString)

/-- A result as it is written to a file. -/
def resultText (verdict : Verdict) (model : List (Option Bool)) : String :=
  match verdict with
  | .sat => verdict.label ++ "\n" ++ modelLine model ++ "\n"
  | _ => verdict.label ++ "\n"

/-! ## Records -/

/-- What is kept of a solved formula. -/
structure Record where
  name : Option String
  numVars : Nat
  numClauses : Nat
  verdict : Verdict
  counters : Search.Counters
  /-- The measured time, a number of seconds. -/
  seconds : Value
  trace : String
deriving Repr

/-- The fields of a record under their names. -/
def Record.fields (r : Record) : List (String × Value) :=
  [ ("name", match r.name with
      | none => .null
      | some name => .text name),
    ("n_v", .int r.numVars),
    ("n_c", .int r.numClauses),
    ("result", .text r.verdict.label),
    ("decisions", .int r.counters.decisions),
    ("conflicts", .int r.counters.conflicts),
    ("backtracks", .int r.counters.backtracks),
    ("max_depth", .int r.counters.maxDepth),
    ("time_s", r.seconds),
    ("key_trace", .text r.trace) ]

/-- The record of what a new solver found out about a formula. -/
def Record.ofSolver (F : Formula) (verdict : Verdict) (solver : Solver) (seconds : Value) :
    Record where
  name := F.name
  numVars := F.numVars
  numClauses := F.numClauses
  verdict := verdict
  counters := solver.counters
  seconds := seconds
  trace := solver.trace

end TrailSat
