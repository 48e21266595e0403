import TrailSat.Search.Board
import TrailSat.Trace.Event

/-!
# Depth-first search for a satisfying assignment

The search decides the free variable with the lowest number, always trying the same value first,
until a clause is falsified or none is active any more.  It keeps its open decisions as a stack of
branches.  On a conflict it closes the branches that have tried both values and flips the newest of
the others; when none is left to flip, the formula cannot be satisfied.

The machine is a `Position` and a function `step`, which reports whether the search goes on.  Two
things may stop it early: a budget of conflicts, and a deadline, both looked at only before a
decision.  An early stop takes back all open branches.

What the search is played on may be any `Board`.  Assignments can fail only on a board that no
sequence of assignments leads to.  A failure ends the search where it is.
-/

namespace TrailSat

/-- What a search finds out. -/
inductive Verdict where
  /-- There is a satisfying assignment. -/
  | sat
  /-- There is none. -/
  | unsat
  /-- The search was stopped early. -/
  | undecided
deriving Repr, DecidableEq

namespace Search

/-- A decided variable, and whether its second value is being tried. -/
structure Branch where
  var : Nat
  flipped : Bool
deriving Repr, DecidableEq

/-- How to search. -/
structure Settings where
  /-- The value that is tried first. -/
  firstPhase : Bool := true
  /-- The number of conflicts after which to stop before the next decision. -/
  conflictBudget : Option Nat := none
  /-- Whether the deadline has passed when the given number of decisions has been made. -/
  expired : Nat → Bool := fun _ => false
  /-- Whether events are recorded. -/
  recordTrace : Bool := true

/-- How much a search has done. -/
structure Counters where
  decisions : Nat := 0
  conflicts : Nat := 0
  backtracks : Nat := 0
  maxDepth : Nat := 0
deriving Repr, DecidableEq

/-- Where a search stands. -/
structure Position (σ : Type) where
  state : σ
  /-- The open branches, the newest first. -/
  branches : List Branch
  counters : Counters
  /-- The events of this search, the newest first. -/
  events : List Trace.Event
deriving Repr, DecidableEq

/-- Where a search begins. -/
def Position.start {σ : Type} (s : σ) (counters : Counters) : Position σ :=
  ⟨s, [], counters, []⟩

/-- Whether the search may go on to another decision. -/
def withinBudget (settings : Settings) (counters : Counters) : Bool :=
  !(settings.conflictBudget.any fun budget => budget ≤ counters.conflicts) &&
    !settings.expired counters.decisions

/-- The events after one more, which is recorded only if events are. -/
def record (settings : Settings) (kind : Trace.Kind) (v : Nat) (value : Bool) (level : Nat)
    (events : List Trace.Event) : List Trace.Event :=
  if settings.recordTrace then ⟨kind, State.literalOf v value, level⟩ :: events else events

variable {σ : Type} [Board σ]

/-! ## Closing branches -/

/-- What closing branches leads to. -/
structure Unwound (σ : Type) where
  state : σ
  branches : List Branch
  /-- What went wrong, if a branch could not be taken back; that branch is closed all the same. -/
  failure : Option AssignError

/-- Takes back the newest branches until at most `keep` are open. -/
def unwind (F : Formula) (keep : Nat) : σ → List Branch → Unwound σ
  | s, [] => ⟨s, [], none⟩
  | s, b :: rest =>
    if rest.length < keep then ⟨s, b :: rest, none⟩
    else match Board.unassign F s b.var with
      | .error setback => ⟨setback.left, rest, some setback.error⟩
      | .ok freed => unwind F keep freed rest

/-- Takes back the newest branches as long as they have tried both values. -/
def closeFlipped (F : Formula) : σ → List Branch → Unwound σ
  | s, [] => ⟨s, [], none⟩
  | s, b :: rest =>
    if b.flipped then
      match Board.unassign F s b.var with
      | .error setback => ⟨setback.left, rest, some setback.error⟩
      | .ok freed => closeFlipped F freed rest
    else ⟨s, b :: rest, none⟩

/-! ## Backtracking -/

/-- Closes the branches that have tried both values and flips the newest of the others.  The
answer tells whether there was one to flip. -/
def backtrack (F : Formula) (settings : Settings) (p : Position σ) :
    Position σ × Except AssignError Bool :=
  let closed := closeFlipped F p.state p.branches
  let p := { p with state := closed.state, branches := closed.branches }
  match closed.failure, closed.branches with
  | some e, _ => (p, .error e)
  | none, [] => (p, .ok false)
  | none, b :: rest =>
    match Board.unassign F closed.state b.var with
    | .error setback => ({ p with state := setback.left }, .error setback.error)
    | .ok freed =>
      match Board.assign F freed b.var (!settings.firstPhase) with
      | .error setback => ({ p with state := setback.left }, .error setback.error)
      | .ok flipped =>
        ({ state := flipped
           branches := ⟨b.var, true⟩ :: rest
           counters := { p.counters with backtracks := p.counters.backtracks + 1 }
           events :=
             record settings .flip b.var (!settings.firstPhase) (rest.length + 1) p.events },
          .ok true)

/-! ## Stepping -/

/-- Whether a search goes on. -/
inductive Status where
  | running
  | finished (verdict : Verdict)
  | failed (error : AssignError)
deriving Repr

/-- Counts a conflict and backtracks. -/
def resolve (F : Formula) (settings : Settings) (p : Position σ) : Position σ × Status :=
  let counted := { p.counters with conflicts := p.counters.conflicts + 1 }
  match backtrack F settings { p with counters := counted } with
  | (q, .ok true) => (q, .running)
  | (q, .ok false) => (q, .finished .unsat)
  | (q, .error e) => (q, .failed e)

/-- Opens a branch on the given variable. -/
def branch (F : Formula) (settings : Settings) (p : Position σ) (v : Nat) :
    Position σ × Status :=
  let counted := { p.counters with decisions := p.counters.decisions + 1 }
  match Board.assign F p.state v settings.firstPhase with
  | .error setback => ({ p with state := setback.left, counters := counted }, .failed setback.error)
  | .ok assigned =>
    let level := p.branches.length + 1
    ({ state := assigned
       branches := ⟨v, false⟩ :: p.branches
       counters := { counted with maxDepth := max counted.maxDepth level }
       events := record settings .decision v settings.firstPhase level p.events },
      .running)

/-- Stops early: every open branch is taken back. -/
def giveUp (F : Formula) (p : Position σ) : Position σ × Status :=
  let unwound := unwind F 0 p.state p.branches
  ({ p with state := unwound.state, branches := unwound.branches },
    match unwound.failure with
    | none => .finished .undecided
    | some e => .failed e)

/-- Makes a decision, unless the search is to stop early. -/
def proceed (F : Formula) (settings : Settings) (p : Position σ) : Position σ × Status :=
  if !withinBudget settings p.counters then giveUp F p
  else match Board.firstFree? p.state with
    | none => resolve F settings p
    | some v => branch F settings p v

/-- One step of the search. -/
def step (F : Formula) (settings : Settings) (p : Position σ) : Position σ × Status :=
  match Board.hasConflict F p.state with
  | .error e => (p, .failed e)
  | .ok true => resolve F settings p
  | .ok false =>
    match Board.isSolved p.state with
    | .error e => (p, .failed e)
    | .ok true => (p, .finished .sat)
    | .ok false => proceed F settings p

end Search

end TrailSat
