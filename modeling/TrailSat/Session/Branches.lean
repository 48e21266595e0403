import TrailSat.Session.Basic

/-!
# Branches on request

A request may bring branches of its own.  They are untyped: a branch should be a list of a variable
and a flag that tells whether its second value is being tried, but may be anything, and is looked at
only when it is its turn.  Whatever counts as true will do for a flag, and a flipped branch gets the
flag `true`.

Branches that are all well written are handed to the search's own `unwind` and `backtrack`.
-/

namespace TrailSat.Session

open Search

/-! ## Branches as data -/

/-- An item of a branch. -/
def branchItem (index : Nat) : Value → Except Fault Value
  | .list items =>
    match items[index]? with
    | some item => .ok item
    | none => .error (.shortBranch "list")
  | .text s =>
    match s.toList[index]? with
    | some c => .ok (.text (String.singleton c))
    | none => .error (.shortBranch "string")
  | .record _ => .error (.noField index)
  | _ => .error .wrongKind

/-- The variable of a branch. -/
def branchVar (branch : Value) : Except Fault Value :=
  branchItem 0 branch

/-- Whether a branch tries its second value. -/
def branchFlag (branch : Value) : Except Fault Bool :=
  (branchItem 1 branch).map Value.isTruthy

/-- A branch that tries its second value. -/
def flipBranch : Value → Value
  | .list items => .list (items.set 1 (.bool true))
  | branch => branch

/-- A branch that is well written. -/
def branch? : Value → Option Branch
  | .list [.int n, .bool flipped] => if 0 ≤ n then some ⟨n.toNat, flipped⟩ else none
  | _ => none

/-- A branch of a search as data. -/
def ofBranch (b : Branch) : Value :=
  .list [.int b.var, .bool b.flipped]

/-- What handling branches leads to; they are given from the newest to the oldest. -/
structure Handled (Result : Type) where
  ledger : Ledger
  branches : List Value
  result : Except Fault Result

/-! ## Taking back -/

/-- How many of `length` branches a level leaves open: `none` if the level is not a number, and
a negative number if it asks for more branches than there are. -/
def branchesToKeep? (length : Nat) (level : Value) : Option Int :=
  match level with
  | .bool b => some (if b then 1 else 0)
  | .int n => some n
  | .real x => match Number.Binary.ofFloat? x with
    | some b => some (b.signedFraction.1 / (b.signedFraction.2 : Int))
    | none => some (if x < 0 then -1 else length)
  | _ => none

/-- Takes back the assignment of a branch. -/
def takeBack (F : Formula) (ledger : Ledger) (branch : Value) : Ledger × Option Fault :=
  match branchVar branch with
  | .error fault => (ledger, some fault)
  | .ok asked =>
    match ledger.unset F asked with
    | .error setback => (setback.left, some (.ofAssign setback.error))
    | .ok freed => (freed, none)

/-- Takes back the newest branches until at most `keep` are open. -/
def unwindGiven (F : Formula) (keep : Nat) : Ledger → List Value → Handled Unit
  | ledger, [] => ⟨ledger, [], .ok ()⟩
  | ledger, branch :: rest =>
    if rest.length < keep then ⟨ledger, branch :: rest, .ok ()⟩
    else match takeBack F ledger branch with
      | (left, some fault) => ⟨left, rest, .error fault⟩
      | (freed, none) => unwindGiven F keep freed rest

/-- Takes back the newest branches until at most `keep` are open. -/
def unwindBranches (F : Formula) (keep : Nat) (ledger : Ledger) (branches : List Value) :
    Handled Unit :=
  match branches.mapM branch? with
  | none => unwindGiven F keep ledger branches
  | some branches =>
    let unwound := Search.unwind F keep ledger branches
    ⟨unwound.state, unwound.branches.map ofBranch,
      match unwound.failure with
      | some e => .error (.ofAssign e)
      | none => .ok ()⟩

/-! ## Backtracking -/

/-- Takes back the newest branches as long as they try their second value. -/
def closeGiven (F : Formula) : Ledger → List Value → Handled Unit
  | ledger, [] => ⟨ledger, [], .ok ()⟩
  | ledger, branch :: rest =>
    match branchFlag branch with
    | .error fault => ⟨ledger, branch :: rest, .error fault⟩
    | .ok false => ⟨ledger, branch :: rest, .ok ()⟩
    | .ok true =>
      match takeBack F ledger branch with
      | (left, some fault) => ⟨left, rest, .error fault⟩
      | (freed, none) => closeGiven F freed rest

/-- Gives the variable of a branch the other value. -/
def flipGiven (F : Formula) (value : Bool) (ledger : Ledger) (branch : Value) :
    Ledger × Except Fault Nat :=
  match takeBack F ledger branch, (branchVar branch).toOption.bind Value.index? with
  | (left, some fault), _ => (left, .error fault)
  | (freed, none), none => (freed, .error .wrongKind)
  | (freed, none), some v =>
    match freed.assign F v.toNat value with
    | .error setback => (setback.left, .error (.ofAssign setback.error))
    | .ok flipped => (flipped, .ok v.toNat)

/-- Closes the branches that try their second value and flips the newest of the others.  The answer
is the variable that was flipped, if there was one. -/
def backtrackGiven (F : Formula) (value : Bool) (ledger : Ledger) (branches : List Value) :
    Handled (Option Nat) :=
  let closed := closeGiven F ledger branches
  match closed.result, closed.branches with
  | .error fault, left => ⟨closed.ledger, left, .error fault⟩
  | .ok (), [] => ⟨closed.ledger, [], .ok none⟩
  | .ok (), branch :: rest =>
    match flipGiven F value closed.ledger branch with
    | (left, .error fault) => ⟨left, branch :: rest, .error fault⟩
    | (flipped, .ok v) => ⟨flipped, flipBranch branch :: rest, .ok (some v)⟩

end TrailSat.Session
