import TrailSat.Dimacs.Writer
import TrailSat.Session.Branches

/-!
# Answering requests

`answer` gives the reply to a request and the session after it.
-/

namespace TrailSat.Session

open Search

/-! ## Queries -/

/-- The answer to a question that may meet an assignment error. -/
def answerAssign {Item : Type} (answer : Item → Answer) :
    Except AssignError Item → Except Fault Answer
  | .ok item => .ok (answer item)
  | .error e => .error (.ofAssign e)

/-- The answer to the question whether the clause that a value selects is in conflict. -/
def answerConflict (session : Session) (index : Value) : Except Fault Answer :=
  match index.lessThan? 0, index.lessThan? session.formula.numClauses with
  | some below, some inside =>
    if !below && inside then
      match index.index? with
      | none => .error .wrongKind
      | some n => answerAssign .flag (session.ledger.isConflict n.toNat)
    else .error (.ofIndex index session.formula.numClauses)
  | _, _ => .error .wrongKind

/-- The answer to a selection. -/
def answerSelection {Item : Type} (fault : Value.SelectError → Fault) (answer : Item → Answer) :
    Except Value.SelectError Item → Except Fault Answer
  | .ok item => .ok (answer item)
  | .error .notInteger => .error .wrongKind
  | .error e => .error (fault e)

/-- The answer to the question what a literal's truth value is. -/
def answerLiteral (session : Session) (literal : Value) : Except Fault Answer :=
  match session.ledger.valueOfLiteral? session.formula literal with
  | none => .error .wrongKind
  | some found => answerAssign .cell found

/-! ## Searching -/

/-- The search settings that the options amount to under a limit on the conflicts.  The time is told
by a clock that stands still. -/
def settings (session : Session) (conflictLimit : Option Nat) : Settings where
  firstPhase := session.options.firstPhase.isTruthy
  conflictBudget := conflictLimit
  expired := expiredBy stillClock session.timeLimit
  recordTrace := session.options.recordTrace.isTruthy

/-- Whether the budgets allow another decision. -/
def answerWithinBudget (session : Session) : Except Fault Answer :=
  match session.options.budgets.conflicts with
  | .error e => .error (.search (.budget e))
  | .ok limit =>
    .ok (.flag (Search.withinBudget (session.settings limit) session.solver.counters))

/-- Searches from what the session's ledger holds. -/
def search (session : Session) : Session × Except Search.Fault Verdict :=
  let conflicts := session.options.budgets.conflicts
  let ended := run session.formula (session.settings (usableLimit conflicts))
    (session.solver.start session.ledger)
  ({ session with ledger := ended.1.state, solver := session.solver.absorb ended.1 },
    underBudget conflicts ended.2)

/-- Searches, and keeps the model. -/
def searchForModel (session : Session) (verbose : Bool) : Session × Reply :=
  let banner := if verbose then Solver.banner session.formula else ""
  match session.search with
  | (after, .error fault) => (after, { result := .error (.search fault), printed := banner })
  | (after, .ok verdict) =>
    let solver := after.solver.conclude after.ledger (.ok verdict)
    let summary := if verbose then Solver.summary solver.counters else ""
    ({ after with solver := solver, timeLimit := none },
      { result := .ok (.verdict verdict), printed := banner ++ summary })

/-- Counts a request to solve, searches under the options, and keeps the model. -/
def solve (session : Session) : Session × Reply :=
  let begun := { session with solver := session.solver.begin }
  match session.options.budgets.seconds with
  | .error e => (begun, { result := .error (.search (.budget e)) })
  | .ok limit =>
    let timed := { begun with timeLimit := limit }
    match session.options.verbosity.atLeast? 1 with
    | none => (timed, { result := .error .wrongKind })
    | some verbose => timed.searchForModel verbose

/-! ## Branches -/

/-- Takes back the given branches, newest first, down to a level. -/
def unwindTo (session : Session) (branches : List Value) (level : Value) : Session × Reply :=
  match branchesToKeep? branches.length level with
  | none => (session, { result := .error .wrongKind, branches := some (.list branches) })
  | some keep =>
    let unwound := unwindBranches session.formula keep.toNat session.ledger branches.reverse
    let left : Value := .list unwound.branches.reverse
    let result := unwound.result.bind fun _ =>
      if keep < 0 then .error .noBranch else .ok (.cell left)
    ({ session with ledger := unwound.ledger }, { result := result, branches := some left })

/-- Backtracks over branches that are well written. -/
def backtrackOver (session : Session) (branches : List Branch) : Session × Reply :=
  let position := { session.solver.start session.ledger with branches := branches }
  let (after, result) :=
    Search.backtrack session.formula (session.settings none) position
  ({ session with ledger := after.state, solver := session.solver.absorb after },
    { result := answerAssign .flag result
      branches := some (.list (after.branches.reverse.map ofBranch)) })

/-- The solver after a branch of the given level was flipped. -/
def noteFlip (session : Session) (v level : Nat) : Solver :=
  let settings := session.settings none
  let counters := session.solver.counters
  let events := record settings .flip v (!settings.firstPhase) level []
  { session.solver with
    counters := { counters with backtracks := counters.backtracks + 1 }
    events := session.solver.events ++ events }

/-- Backtracks over branches one by one. -/
def backtrackOneByOne (session : Session) (branches : List Value) : Session × Reply :=
  let value := !(session.settings none).firstPhase
  let done := backtrackGiven session.formula value session.ledger branches
  let left : Value := .list done.branches.reverse
  let after := { session with ledger := done.ledger }
  match done.result with
  | .error fault => (after, { result := .error fault, branches := some left })
  | .ok none => (after, { result := .ok (.flag false), branches := some left })
  | .ok (some v) =>
    ({ after with solver := session.noteFlip v done.branches.length },
      { result := .ok (.flag true), branches := some left })

/-- Why there is no backtracking over data that is not a list of branches: the last branch of a text
is too short, and a record has no last field. -/
def faultOfBranches : Value → Fault
  | .text _ => .shortBranch "string"
  | .record _ => .noField (-1)
  | _ => .wrongKind

/-- Backtracks over the given branches.  Anything that counts as false stands for no branches. -/
def backtrack (session : Session) (branches : Value) : Session × Reply :=
  match branches with
  | .list given =>
    match given.reverse.mapM branch? with
    | some branches => session.backtrackOver branches
    | none => session.backtrackOneByOne given.reverse
  | _ =>
    let result :=
      if branches.isTruthy then .error (faultOfBranches branches) else .ok (.flag false)
    (session, { result := result, branches := some branches })

/-- Takes back the given branches down to a level. -/
def unwind (session : Session) (branches level : Value) : Session × Reply :=
  match branches with
  | .list given => session.unwindTo given level
  | _ => (session, { result := .error .wrongKind, branches := some branches })

/-! ## Answering -/

/-- The session and the reply after a change of the ledger was asked for. -/
def changeLedger (session : Session) (changed : Except (Setback Ledger) Ledger) :
    Session × Reply :=
  match changed with
  | .ok ledger => ({ session with ledger := ledger }, { result := .ok .done })
  | .error setback =>
    ({ session with ledger := setback.left }, { result := .error (.ofAssign setback.error) })

/-- Answers a request. -/
def answer (session : Session) (request : Request) : Session × Reply :=
  let F := session.formula
  let ledger := session.ledger
  let reply (result : Except Fault Answer) : Session × Reply := (session, { result := result })
  match request with
  | .numVars => reply (.ok (.number F.numVars))
  | .numClauses => reply (.ok (.number F.numClauses))
  | .numAssigned => reply (.ok (.number ledger.numAssigned))
  | .depth => reply (.ok (.number ledger.depth))
  | .activeClauses => reply (answerAssign .cells ledger.active)
  | .assignment => reply (.ok (.cells ledger.cells.values))
  | .literals => reply (.ok (.numbers ledger.literals))
  | .firstFree => reply (.ok (.number (((Board.firstFree? ledger).map Int.ofNat).getD (-1))))
  | .hasConflict => reply (answerAssign .flag (Board.hasConflict F ledger))
  | .isSolved => reply (answerAssign .flag (Board.isSolved ledger))
  | .clause index => reply (answerSelection .noClause .numbers (index.select F.clauses))
  | .marks index => reply (answerSelection .noMarks .cells (index.select ledger.cells.marks))
  | .isConflict index => reply (session.answerConflict index)
  | .valueOf var => reply (answerAssign .cell (ledger.valueOf F var))
  | .valueOfLiteral literal => reply (session.answerLiteral literal)
  | .tabbed => reply (.ok (.text F.tabbed))
  | .describe => reply (.ok (.text (F.describe ledger.depth)))
  | .printAssignment =>
    reply (match ledger.printed? with
      | some text => .ok (.text text)
      | none => .error .unwritable)
  | .dimacs => reply (.ok (.text (Dimacs.write F)))
  | .setVar var value => session.changeLedger (ledger.setVar F var value)
  | .unset var => session.changeLedger (ledger.unset F var)
  | .reset => session.changeLedger (.ok (Ledger.initial F))
  | .replace part =>
    session.changeLedger (.ok (Ledger.ofSheet F (part.replaceIn ledger.cells)))
  | .newSolver =>
    ({ session with options := {}, solver := {}, timeLimit := none },
      { result := .ok (.options {}) })
  | .setOption name v =>
    ({ session with options := session.options.set name v }, { result := .ok .done })
  | .solve => session.solve
  | .search =>
    match session.search with
    | (after, .ok verdict) => (after, { result := .ok (.verdict verdict) })
    | (after, .error fault) => (after, { result := .error (.search fault) })
  | .withinBudget => reply session.answerWithinBudget
  | .unwind branches level => session.unwind branches level
  | .backtrack branches => session.backtrack branches
  | .keyTrace =>
    reply (match Trace.key session.solver.trace with
      | .ok text => .ok (.text text)
      | .error e => .error (.trace e))

end TrailSat.Session
