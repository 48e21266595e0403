import TrailSat.Command.Measure
import TrailSat.Command.Report
import TrailSat.Result

/-!
# Solving one file

The command loads a DIMACS file, searches for a satisfying assignment, prints what it found, and
writes the result if it was told where.  Its exit status tells the verdict.  A file that is missing
or malformed is reported as an error; damage that hides what the file says, or an option without the
value that is needed, makes the command give up.

`report` is the whole command.  It is put together from `load`, the search, and `conclude`, so that
the search can also be run under a real clock.
-/

namespace TrailSat.Command.Solve

open Arguments Files

/-! ## Settings -/

/-- What is to be solved, and how. -/
structure Request where
  input : Given String := .value ""
  /-- Where the result goes; a hyphen stands for the terminal. -/
  output : Option (Given String) := none
  /-- From 1 on, statistics are printed. -/
  verbosity : Given Int := .value 1
  conflictBudget : Given Int := .value (-1)
  /-- The greatest number of seconds, if one was given. -/
  timeBudget : Option (Given Float) := none
  /-- The greatest number of literals in a clause, if one was given. -/
  maxClauseLength : Option (Given Int) := none
  rejectEmpty : Bool := false
  firstPhase : Given Bool := .value true

/-- The texts for the two truth values. -/
def phases : List (String × Bool) :=
  [("true", true), ("false", false)]

/-- The options of the command. -/
def rules : List (Rule Request) :=
  [ (Rule.ofValue ["-i", "--input_file"] "The DIMACS file, compressed if its name ends in .gz."
      readText fun path request => { request with input := path }).always,
    Rule.ofValue ["-o", "--output_file"] "Where the result is written; - is the terminal."
      readText fun path request => { request with output := some path },
    Rule.ofValue ["--verbosity"] "From 1 on, statistics are printed."
      readInt fun n request => { request with verbosity := n },
    Rule.ofValue ["--conflict-budget"] "Stop after this many conflicts; negative for no limit."
      readInt fun n request => { request with conflictBudget := n },
    Rule.ofValue ["--time-budget"] "Stop after this many seconds; negative for no limit."
      readDouble fun x request => { request with timeBudget := some x },
    Rule.ofValue ["--max-clause-len"] "Refuse clauses with more literals."
      readInt fun n request => { request with maxClauseLength := some n },
    Rule.ofFlag "--reject-empty-clauses" "Refuse clauses without literals."
      fun request => { request with rejectEmpty := true },
    Rule.ofValue ["--first-phase"] "The value that is tried first."
      (readChoice phases) fun phase request => { request with firstPhase := phase } ]

/-- The request that a command line makes. -/
def readRequest (words : List String) : Except Stop Request :=
  Arguments.read rules {} words

/-! ## Loading -/

/-- The words for an error that the command reports, or `none` if it gives up on it. -/
def reported? : LoadError → Option String
  | .file .nullCharacter => none
  | .file error => some error.message
  | .notDimacs error => if error.cause.blamesText then some error.message else none
  | .damaged (.compressed fault) =>
    match fault with
    | .notGzip _ | .unknownMethod | .badChecksum _ _ | .badLength => some fault.message
    | .truncated | .corrupt _ => none
  | .damaged .notText => none
  | .notFlat _ => none

/-- The report of a command whose formula could not be loaded. -/
def reportUnloaded (tree : Tree) (failure : Failure) : Report :=
  let message? := match failure with
    | .load error => reported? error
    | _ => none
  match message? with
  | some message =>
    { err := "PARSE ERROR! " ++ message ++ "\n", tree := tree, ending := .exit 1 }
  | none => Report.ofFailure tree failure

/-- What to accept in the file.  A blank limit is no number. -/
def Request.dimacsOptions (request : Request) : Dimacs.Options where
  allowEmpty := !request.rejectEmpty
  maxClauseLength := request.maxClauseLength.map fun limit =>
    (limit.value?.map Value.int).getD .null

/-- Loads the formula. -/
def load (request : Request) (tree : Tree) : Except Failure Formula :=
  match request.input with
  | .blank => .error (.blank "--input_file")
  | .value path => (loadDimacs tree request.dimacsOptions path).mapError .load

/-! ## Solving -/

/-- How far the search may go. -/
def Request.budgets (request : Request) : Search.Budgets :=
  .ofGiven request.conflictBudget.value? (request.timeBudget.map Given.value?)

/-- What keeps the search from being begun. -/
def Request.obstacle? (request : Request) : Option Failure :=
  match request.budgets.seconds, request.verbosity with
  | .error e, _ => some (.search (.budget e))
  | .ok _, .blank => some (.blank "--verbosity")
  | .ok _, .value _ => none

/-- How the search is done when it is timed by the given clock. -/
def Request.settings (request : Request) (clock : Nat → Float) : Search.Settings :=
  { request.budgets.settings clock with firstPhase := request.firstPhase.value?.getD false }

/-- Whether statistics are printed. -/
def Request.verbose (request : Request) : Bool :=
  request.verbosity.value?.any (1 ≤ ·)

/-- What is printed before the search. -/
def Request.banner (request : Request) (F : Formula) : String :=
  if request.verbose then Solver.banner F else ""

/-- Writes a result: to the terminal if the path is a hyphen, to a file otherwise. -/
def writeResult (tree : Tree) (path : String) (verdict : Verdict) (model : List (Option Bool)) :
    Report :=
  let text := resultText verdict model
  if path == "-" then { out := text, tree := tree, ending := .returned }
  else
    match tree.writeFile path text.toUTF8 with
    | .ok written => { tree := written, ending := .returned }
    | .error e => Report.ofFailure tree (.write e)

/-- What is printed after the search. -/
def Request.findings (request : Request) (counters : Search.Counters) (readings : Readings)
    (verdict : Verdict) : String :=
  (if request.verbose then Solver.summary counters ++ statistics counters readings else "") ++
    verdict.word ++ "\n"

/-- Where the result is to be written, if it is. -/
def Request.target? (request : Request) : Option String :=
  (request.output.bind Given.value?).filter fun path => !path.isEmpty

/-- The report once a verdict has been found. -/
def deliver (request : Request) (readings : Readings) (tree : Tree) (F : Formula)
    (solver : Solver) (verdict : Verdict) : Report :=
  let printed := request.banner F ++ request.findings solver.counters readings verdict
  match request.target? with
  | none => { out := printed, tree := tree, ending := .exit verdict.exitStatus }
  | some path =>
    let written := writeResult tree path verdict solver.model
    { written with
      out := printed ++ written.out
      ending := match written.ending with
        | .returned => .exit verdict.exitStatus
        | ending => ending }

/-- The report of a search that has ended. -/
def conclude (request : Request) (readings : Readings) (tree : Tree) (F : Formula)
    (outcome : Solver.Outcome State) : Report :=
  match Search.underBudget request.budgets.conflicts outcome.result with
  | .ok verdict => deliver request readings tree F outcome.solver verdict
  | .error fault =>
    { out := request.banner F, tree := tree, ending := .failed (.search fault) }

/-- Searches for a satisfying assignment. -/
def search (request : Request) (clock : Nat → Float) (F : Formula) : Solver.Outcome State :=
  ({} : Solver).solve F (request.settings clock) (State.initial F)

/-! ## The command -/

/-- Does what a request asks for. -/
def respond (request : Request) (clock : Nat → Float) (readings : Readings) (tree : Tree) :
    Report :=
  match load request tree with
  | .error failure => reportUnloaded tree failure
  | .ok F =>
    match request.obstacle? with
    | some failure => Report.ofFailure tree failure
    | none => conclude request readings tree F (search request clock F)

/-- The whole command. -/
def report (program : String) (clock : Nat → Float) (readings : Readings) (words : List String)
    (tree : Tree) : Report :=
  match readRequest words with
  | .error stop => Report.ofStop program rules tree stop
  | .ok request => respond request clock readings tree

end TrailSat.Command.Solve
