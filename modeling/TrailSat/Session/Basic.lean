import TrailSat.Search.Budget
import TrailSat.Search.Run
import TrailSat.Solver
import TrailSat.Trace.Key

/-!
# Solver sessions

A session holds a formula, a ledger of its assignment and a solver, and answers requests one after
the other.  Requests carry untyped values, and the solver's options and the parts of the ledger may
be set to any value: each is looked at only when it is used, and a value of the wrong kind is a
fault at that moment.  A fault ends the request; what it had changed until then stays changed.

This file says what can be requested, what can be wrong, and what is answered.
-/

namespace TrailSat

open Search

namespace Session

/-! ## Options -/

/-- The options of a session's solver, as they were set. -/
structure Options where
  verbosity : Value := .int 0
  firstPhase : Value := .bool true
  conflictBudget : Value := .int (-1)
  timeBudget : Value := .int (-1)
  recordTrace : Value := .bool true
deriving Repr

/-- The names of the options. -/
inductive OptionName where
  | verbosity
  | firstPhase
  | conflictBudget
  | timeBudget
  | recordTrace
deriving Repr, DecidableEq

/-- The options after one of them was set. -/
def Options.set (options : Options) (name : OptionName) (v : Value) : Options :=
  match name with
  | .verbosity => { options with verbosity := v }
  | .firstPhase => { options with firstPhase := v }
  | .conflictBudget => { options with conflictBudget := v }
  | .timeBudget => { options with timeBudget := v }
  | .recordTrace => { options with recordTrace := v }

/-- The budgets that the options amount to. -/
def Options.budgets (options : Options) : Budgets :=
  .ofValues options.conflictBudget options.timeBudget

end Session

/-! ## Sessions -/

/-- A formula, its assignment and a solver. -/
structure Session where
  formula : Formula
  ledger : Ledger
  options : Session.Options := {}
  solver : Solver := {}
  /-- The time limit of a search that was requested and has not ended regularly. -/
  timeLimit : Option Float := none

namespace Session

/-- The session in which nothing has been requested yet. -/
def start (F : Formula) : Session where
  formula := F
  ledger := Ledger.initial F

/-! ## Faults -/

/-- What a request can fail with. -/
inductive Fault where
  /-- A value is not of the kind that is needed. -/
  | wrongKind
  /-- A search went wrong. -/
  | search (fault : Search.Fault)
  /-- A value selects none of the formula's clauses. -/
  | noClause (error : Value.SelectError)
  /-- A value selects none of the rows of marks. -/
  | noMarks (error : Value.SelectError)
  /-- A number is not the index of a clause. -/
  | badIndex (asked : Value) (numClauses : Nat)
  /-- More branches were to be taken back than there are. -/
  | noBranch
  /-- A branch, a row of the given kind, has fewer items than are needed. -/
  | shortBranch (row : String)
  /-- A record has no field that goes by a number. -/
  | noField (index : Int)
  /-- The trace is malformed. -/
  | trace (error : Trace.StepError)
  /-- A number that is to be told has too many digits. -/
  | unwritable
deriving Repr

/-- The fault of an assignment that went wrong. -/
def Fault.ofAssign (error : AssignError) : Fault :=
  .search (.assign error)

/-- The words for a value that selects no item of a row of the given kind. -/
def selectMessage (row : String) : Value.SelectError → String
  | .notInteger => row ++ " indices must be integers"
  | .outOfRange => row ++ " index out of range"
  | .tooLarge => "cannot fit 'int' into an index-sized integer"

/-- The words in which a fault is reported. -/
def Fault.message : Fault → String
  | wrongKind => "a value is of the wrong kind"
  | search fault => fault.message
  | noClause error => selectMessage "tuple" error
  | noMarks error => selectMessage "list" error
  | badIndex asked numClauses =>
    "Clause index " ++ asked.plain ++ " out of range 0.." ++
      toString ((numClauses : Int) - 1) ++ "."
  | noBranch => "pop from empty list"
  | shortBranch row => row ++ " index out of range"
  | noField index => toString index
  | trace error => error.message
  | unwritable => Number.unwritableMessage

/-- The fault that a value is not the index of a clause, if it can be told. -/
def Fault.ofIndex (asked : Value) (numClauses : Nat) : Fault :=
  if asked.isWritable then badIndex asked numClauses else unwritable

/-! ## Requests and answers -/

/-- A part of the ledger that is to be replaced as a whole. -/
inductive Part where
  | values (cells : List Value)
  | marks (rows : List (List Value))
  /-- The lists of active clauses, the last saved first. -/
  | frames (lists : List (List Value))
  /-- The assigned variables, the last assigned first. -/
  | trail (vars : List Value)
deriving Repr

/-- The sheet with a part replaced. -/
def Part.replaceIn (sheet : Sheet) : Part → Sheet
  | .values cells => { sheet with values := cells }
  | .marks rows => { sheet with marks := rows }
  | .frames lists => { sheet with frames := lists }
  | .trail vars => { sheet with trail := vars }

/-- What can be requested. -/
inductive Request where
  | numVars
  | numClauses
  | numAssigned
  | depth
  | activeClauses
  | assignment
  | literals
  | firstFree
  | hasConflict
  | isSolved
  | clause (index : Value)
  | marks (index : Value)
  | isConflict (index : Value)
  | valueOf (var : Value)
  | valueOfLiteral (literal : Value)
  | tabbed
  | describe
  | printAssignment
  | dimacs
  | setVar (var value : Value)
  | unset (var : Value)
  | reset
  | replace (part : Part)
  | newSolver
  | setOption (name : OptionName) (value : Value)
  | solve
  | search
  | withinBudget
  /-- To take back branches, given from the oldest to the newest, down to a level. -/
  | unwind (branches level : Value)
  /-- To backtrack over branches, given from the oldest to the newest. -/
  | backtrack (branches : Value)
  | keyTrace
deriving Repr

/-- What a request is answered with. -/
inductive Answer where
  | done
  | number (n : Int)
  | flag (b : Bool)
  | numbers (ns : List Int)
  | cell (cell : Value)
  | cells (cells : List Value)
  | text (s : String)
  | verdict (verdict : Verdict)
  | options (options : Options)
deriving Repr

/-- The reply to a request. -/
structure Reply where
  result : Except Fault Answer
  /-- The branches as they were left, if the request brought some. -/
  branches : Option Value := none
  /-- What was printed. -/
  printed : String := ""

end Session

end TrailSat
