import TrailSat.Search.Basic

/-!
# Budgets and deadlines

A conflict budget is an integer and a time budget a number of seconds; negative budgets, and a time
budget that is no number, stand for no limit.  A deadline passes when the elapsed time reaches the
time budget, so a budget of zero has passed from the start.

Budgets may also be given as untyped data, and then may turn out to be unusable.  A time budget is
looked at before the search and a conflict budget before every decision.
-/

namespace TrailSat.Search

/-- The number of conflicts to which an integer limits a search. -/
def conflictLimit? (budget : Int) : Option Nat :=
  if 0 ≤ budget then some budget.toNat else none

/-- The number of seconds to which a time budget limits a search. -/
def timeLimit? (budget : Float) : Option Float :=
  if 0 ≤ budget then some budget else none

/-- Whether a limit on the seconds has been reached. -/
def hasExpired (limit : Option Float) (elapsed : Float) : Bool :=
  match limit with
  | none => false
  | some seconds => seconds ≤ elapsed

/-- A clock that stands still right after the start: it shows a millionth of a second whatever has
been done. -/
def stillClock : Nat → Float :=
  fun _ => 0.000001

/-- The deadline of a search that is timed by the given clock. -/
def expiredBy (clock : Nat → Float) (limit : Option Float) : Nat → Bool :=
  fun decisions => hasExpired limit (clock decisions)

/-! ## Untyped budgets -/

/-- Why a budget cannot be used. -/
inductive BudgetError where
  /-- It is not a number. -/
  | notNumber
  /-- It is a number of seconds beyond all doubles. -/
  | tooLarge
deriving Repr, DecidableEq

/-- The words in which the error is reported. -/
def BudgetError.message : BudgetError → String
  | notNumber => "the budget is not a number"
  | tooLarge => "int too large to convert to float"

/-- The least natural number that is not below a nonnegative number, if there is one. -/
def ceiling? : Value → Option Nat
  | .bool b => some (if b then 1 else 0)
  | .int n => some n.toNat
  | .real x => (Number.Binary.ofFloat? x).map fun b =>
    (b.fraction.1 + b.fraction.2 - 1) / b.fraction.2
  | _ => none

/-- The number of conflicts to which a value limits a search. -/
def readConflictLimit (budget : Value) : Except BudgetError (Option Nat) :=
  match budget.atLeast? 0 with
  | none => .error .notNumber
  | some limited => .ok (if limited then ceiling? budget else none)

/-- The number of seconds to which a value limits a search. -/
def readTimeLimit (budget : Value) : Except BudgetError (Option Float) :=
  match budget.atLeast? 0 with
  | none => .error .notNumber
  | some false => .ok none
  | some true =>
    if budget.isBeyondDoubles then .error .tooLarge else .ok budget.toReal?

/-- The budgets of a search, as far as they can be used. -/
structure Budgets where
  conflicts : Except BudgetError (Option Nat) := .ok none
  seconds : Except BudgetError (Option Float) := .ok none

/-- The budgets that two values describe. -/
def Budgets.ofValues (conflicts seconds : Value) : Budgets :=
  ⟨readConflictLimit conflicts, readTimeLimit seconds⟩

/-- The budgets of a request that should have a budget of conflicts, and may have one of seconds
that then should be there. -/
def Budgets.ofGiven (conflicts : Option Int) (seconds : Option (Option Float)) : Budgets where
  conflicts := match conflicts with
    | none => .error .notNumber
    | some n => .ok (conflictLimit? n)
  seconds := match seconds with
    | none => .ok none
    | some none => .error .notNumber
    | some (some x) => .ok (timeLimit? x)

/-! ## Searching under an unusable budget -/

/-- What can go wrong in a search under budgets. -/
inductive Fault where
  /-- A budget cannot be used. -/
  | budget (error : BudgetError)
  /-- A variable could not be assigned or unassigned. -/
  | assign (error : AssignError)
deriving Repr

/-- The words in which the fault is reported. -/
def Fault.message : Fault → String
  | budget error => error.message
  | assign error => error.message

/-- The limit under which to search.  An unusable budget is met before the first decision, where no
branch is open yet; the search gets exactly that far under a limit of zero. -/
def usableLimit (conflicts : Except BudgetError (Option Nat)) : Option Nat :=
  match conflicts with
  | .ok limit => limit
  | .error _ => some 0

/-- How to search under budgets when the time is told by the given clock. -/
def Budgets.settings (budgets : Budgets) (clock : Nat → Float) : Settings where
  conflictBudget := usableLimit budgets.conflicts
  expired := expiredBy clock (budgets.seconds.toOption.getD none)

/-- The result of a search under the usable limit as a result under the budget. -/
def underBudget (conflicts : Except BudgetError (Option Nat)) :
    Except AssignError Verdict → Except Fault Verdict
  | .error e => .error (.assign e)
  | .ok verdict =>
    match conflicts, verdict with
    | .error e, .undecided => .error (.budget e)
    | _, _ => .ok verdict

end TrailSat.Search
