import TrailSat.Command.Report
import TrailSat.Result
import TrailSat.Value.Json

/-!
# Solving many problems

The command solves every problem of a file of flat text, or every DIMACS file of a folder, and
writes their records as one JSON list.  The problems are loaded and solved one after the other; the
first that cannot be makes the command give up before anything is written.
-/

namespace TrailSat.Command.Batch

open Arguments Files

/-! ## Settings -/

/-- Where problems come from. -/
inductive Mode where
  /-- From a file of flat text. -/
  | flat
  /-- From the DIMACS files of a folder. -/
  | folder
deriving Repr, DecidableEq

/-- The texts for the modes. -/
def modes : List (String × Mode) :=
  [("txt", .flat), ("folder", .folder)]

/-- What is to be solved, and how. -/
structure Request where
  mode : Given Mode := .blank
  flatFile : Option (Given String) := none
  folder : Option (Given String) := none
  /-- Where the records go. -/
  savePath : Given String := .value "./output/dpll/results.json"
  conflictBudget : Given Int := .value (-1)
  /-- The greatest number of seconds for a problem, if one was given. -/
  timeBudget : Option (Given Float) := none

/-- The options of the command. -/
def rules : List (Rule Request) :=
  [ (Rule.ofValue ["--mode"] "Where the problems come from: txt or folder."
      (readChoice modes) fun mode request => { request with mode := mode }).always,
    Rule.ofValue ["--txt-file"] "The file of problems, for the mode txt."
      readText fun path request => { request with flatFile := some path },
    Rule.ofValue ["--folder"] "The folder of DIMACS files, for the mode folder."
      readText fun path request => { request with folder := some path },
    Rule.ofValue ["--save-path"] "Where the records are written."
      readText fun path request => { request with savePath := path },
    Rule.ofValue ["--conflict-budget"] "Stop after this many conflicts; negative for no limit."
      readInt fun n request => { request with conflictBudget := n },
    Rule.ofValue ["--time-budget"] "Stop after this many seconds; negative for no limit."
      readDouble fun x request => { request with timeBudget := some x } ]

/-- The request that a command line makes. -/
def readRequest (words : List String) : Except Stop Request :=
  Arguments.read rules {} words

/-- The path that an option gives, which may not be empty in the given mode. -/
def requirePath (option mode : String) (given : Option (Given String)) : Except Misuse String :=
  match given.bind Given.value? with
  | none | some "" => .error (.neededFor option ("--mode " ++ mode))
  | some path => .ok path

/-- Where the problems come from; a folder, if that was left blank. -/
def Request.source (request : Request) : Mode :=
  request.mode.value?.getD .folder

/-- The path that the problems are loaded from. -/
def Request.path (request : Request) : Except Misuse String :=
  match request.source with
  | .flat => requirePath "--txt-file" "txt" request.flatFile
  | .folder => requirePath "--folder" "folder" request.folder

/-! ## Solving -/

/-- The problems at a path, each loaded on its own. -/
def load (mode : Mode) (tree : Tree) (path : String) :
    Except LoadError (List (Except LoadError Formula)) :=
  match mode with
  | .flat => loadFlat tree path
  | .folder => loadFolder tree path

/-- How far each search may go. -/
def Request.budgets (request : Request) : Search.Budgets :=
  .ofGiven request.conflictBudget.value? (request.timeBudget.map Given.value?)

/-- The record of a search under budgets that has ended after the given time. -/
def recordOf (F : Formula) (budgets : Search.Budgets) (seconds : Value)
    (outcome : Solver.Outcome State) : Except Failure Record :=
  match Search.underBudget budgets.conflicts outcome.result with
  | .ok verdict => .ok (Record.ofSolver F verdict outcome.solver seconds)
  | .error fault => .error (.search fault)

/-- The record of a problem that is solved under budgets, when the time is told by a clock; nobody
measures how long it takes. -/
def solveOne (budgets : Search.Budgets) (clock : Nat → Float) (F : Formula) :
    Except Failure Record :=
  match budgets.seconds with
  | .error e => .error (.search (.budget e))
  | .ok _ =>
    recordOf F budgets (.int 0) (({} : Solver).solve F (budgets.settings clock) (State.initial F))

/-- The records of the problems at a path. -/
def solveAll (mode : Mode) (budgets : Search.Budgets) (clock : Nat → Float) (tree : Tree)
    (path : String) : Except Failure (List Record) := do
  let problems ← (load mode tree path).mapError .load
  problems.mapM fun loaded => do
    let F ← loaded.mapError .load
    solveOne budgets clock F

/-! ## Saving -/

/-- Records as a JSON text. -/
def recordsText (records : List Value) : String :=
  (Value.list records).json (.indented 4)

/-- Writes records to a file. -/
def saveRecords (tree : Tree) (path : String) (records : List Value) : Except FileError Tree :=
  tree.writeFile path (recordsText records).toUTF8

/-- Writes records to a file, whose folder is made if it is missing, and reports where they are. -/
def saveAt (tree : Tree) (path : String) (records : List Record) : Report :=
  match tree.ensureParent path with
  | .error e => Report.ofFailure tree (.write e)
  | .ok made =>
    match saveRecords made path (records.map fun record => .record record.fields) with
    | .error e => Report.ofFailure made (.write e)
    | .ok written =>
      { out := "Results saved to " ++ path ++ "\n", tree := written, ending := .returned }

/-- Writes the records to where a request wants them. -/
def save (request : Request) (tree : Tree) (records : List Record) : Report :=
  match request.savePath with
  | .blank => Report.ofFailure tree (.blank "--save-path")
  | .value path => saveAt tree path records

/-! ## The command -/

/-- The whole command. -/
def report (program : String) (clock : Nat → Float) (words : List String) (tree : Tree) : Report :=
  match readRequest words with
  | .error stop => Report.ofStop program rules tree stop
  | .ok request =>
    match request.path with
    | .error misuse => Report.ofMisuse program tree misuse
    | .ok path =>
      match solveAll request.source request.budgets clock tree path with
      | .error failure => Report.ofFailure tree failure
      | .ok records => save request tree records

end TrailSat.Command.Batch
