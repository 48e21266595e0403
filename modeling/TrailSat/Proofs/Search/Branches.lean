import TrailSat.Proofs.Search.Recursive
import TrailSat.Search.Run

/-!
# Branches and the state under them

A search on a reachable state keeps two stacks, its branches and the trail of the state, and updates
them in different places.  They never come apart: with `taken` for the assignments that the branches
stand for, the state is at every position the one along `taken branches ++ base`, where `base` is
what had been assigned when the search began (`Mirrors`).

Under this invariant each part of a step has a plain description, without errors:

```text
unwind         drops the newest branches
closeFlipped   drops the newest branches as long as they are flipped
backtrack      the same, and flips the branch that is newest then
step           conflict, solution, early stop, or one more branch
```

The arm of a step in which no variable is free is not among them: by `satisfies_of_not_free` there
is a conflict or a solution then.
-/

namespace TrailSat.Search

/-! ## Having done more -/

/-- The events after some more, which are recorded only if events are. -/
def noted (settings : Settings) (more events : List Trace.Event) : List Trace.Event :=
  if settings.recordTrace then more.reverse ++ events else events

/-- A position at which more has been done. -/
def Position.more (settings : Settings) (p : Position State) (r : Exploration) : Position State :=
  { p with
    counters := p.counters.plus r.counters
    events := noted settings r.events p.events }

theorem noted_append (settings : Settings) (first second events : List Trace.Event) :
    noted settings (first ++ second) events =
      noted settings second (noted settings first events) := by
  by_cases hrecord : settings.recordTrace = true <;> simp [noted, hrecord]

theorem Position.more_andThen (settings : Settings) (p : Position State)
    (first second : Exploration) :
    p.more settings (first.andThen second) = (p.more settings first).more settings second := by
  simp only [more, Exploration.andThen, Counters.plus_assoc, noted_append]

/-- A conflict is counted and leaves no event. -/
theorem Position.more_conflict (settings : Settings) (p : Position State) :
    p.more settings .conflict =
      { p with counters := { p.counters with conflicts := p.counters.conflicts + 1 } } := by
  simp [more, Exploration.conflict, Counters.plus, noted]

/-! ## What branches stand for -/

/-- The assignments that branches stand for, the newest first. -/
def taken (firstPhase : Bool) (branches : List Branch) : Assignment :=
  branches.map fun b => (b.var, if b.flipped then !firstPhase else firstPhase)

@[simp] theorem taken_nil (firstPhase : Bool) : taken firstPhase [] = [] :=
  rfl

/-- The state of a position is the one that its branches ask for, on top of an assignment. -/
structure Mirrors (F : Formula) (firstPhase : Bool) (base : Assignment)
    (p : Position State) : Prop where
  state_eq : p.state = State.along F (taken firstPhase p.branches ++ base)
  proper : Assignment.Proper F (taken firstPhase p.branches ++ base)

theorem Mirrors.more {F : Formula} {firstPhase : Bool} {base : Assignment} {p : Position State}
    (hp : Mirrors F firstPhase base p) (settings : Settings) (r : Exploration) :
    Mirrors F firstPhase base (p.more settings r) :=
  ⟨hp.state_eq, hp.proper⟩

/-! ## The board along an assignment -/

theorem assign_board_along {F : Formula} {a : Assignment} {v : Nat} (hlow : 1 ≤ v)
    (hhigh : v ≤ F.numVars) (hfree : a.value? v = none) (value : Bool) :
    Board.assign F (State.along F a) v value = .ok (State.along F ((v, value) :: a)) :=
  State.orElse_eq_ok.2 (State.assign_along hlow hhigh hfree value)

theorem unassign_board_along {F : Formula} {a : Assignment} {e : Nat × Bool}
    (ha : Assignment.Proper F (e :: a)) :
    Board.unassign F (State.along F (e :: a)) e.1 = .ok (State.along F a) := by
  obtain ⟨⟨hlow, hhigh⟩, hfree, -⟩ := ha
  exact State.orElse_eq_ok.2 (State.unassign_along hlow hhigh hfree)

theorem hasConflict_board_along {F : Formula} {a : Assignment} (ha : a.Proper F) :
    Board.hasConflict F (State.along F a) = .ok (F.clauses.any a.falsifies) :=
  congrArg Except.ok (State.hasConflict_along ha)

theorem isSolved_board_along (F : Formula) (a : Assignment) :
    Board.isSolved (State.along F a) = .ok (F.clauses.all a.satisfies) :=
  congrArg Except.ok (State.isSolved_along F a)

theorem firstFree?_board_along (F : Formula) (a : Assignment) :
    Board.firstFree? (State.along F a) = a.firstFree? F :=
  State.firstFree?_along F a

variable {F : Formula} {firstPhase : Bool} {base : Assignment}

theorem unassign_taken {b : Branch} {rest : List Branch}
    (hproper : Assignment.Proper F (taken firstPhase (b :: rest) ++ base)) :
    Board.unassign F (State.along F (taken firstPhase (b :: rest) ++ base)) b.var =
      .ok (State.along F (taken firstPhase rest ++ base)) :=
  unassign_board_along hproper

/-- Flipping the newest branch gives its variable the other value. -/
theorem assign_taken {b : Branch} {rest : List Branch}
    (hproper : Assignment.Proper F (taken firstPhase (b :: rest) ++ base)) :
    Board.assign F (State.along F (taken firstPhase rest ++ base)) b.var (!firstPhase) =
      .ok (State.along F (taken firstPhase (⟨b.var, true⟩ :: rest) ++ base)) := by
  obtain ⟨⟨hlow, hhigh⟩, hfree, -⟩ := hproper
  exact assign_board_along hlow hhigh hfree _

/-! ## Closing branches -/

/-- Taking back branches down to a level leaves the oldest ones. -/
theorem unwind_along (keep : Nat) {branches : List Branch}
    (hproper : Assignment.Proper F (taken firstPhase branches ++ base)) :
    unwind F keep (State.along F (taken firstPhase branches ++ base)) branches =
      ⟨State.along F (taken firstPhase (branches.drop (branches.length - keep)) ++ base),
        branches.drop (branches.length - keep), none⟩ := by
  induction branches with
  | nil => simp [unwind]
  | cons b rest ih =>
      rw [unwind]
      by_cases hkeep : rest.length < keep
      · have hnone : (b :: rest).length - keep = 0 := by rw [List.length_cons]; omega
        rw [if_pos hkeep, hnone, List.drop_zero]
      · have hone : (b :: rest).length - keep = rest.length - keep + 1 := by
          rw [List.length_cons]
          omega
        rw [if_neg hkeep, hone, List.drop_succ_cons, ← ih hproper.2.2, unassign_taken hproper]

/-- Closing takes back the newest branches as long as they are flipped. -/
theorem closeFlipped_along {branches : List Branch}
    (hproper : Assignment.Proper F (taken firstPhase branches ++ base)) :
    closeFlipped F (State.along F (taken firstPhase branches ++ base)) branches =
      ⟨State.along F (taken firstPhase (branches.dropWhile Branch.flipped) ++ base),
        branches.dropWhile Branch.flipped, none⟩ := by
  induction branches with
  | nil => rfl
  | cons b rest ih =>
      rw [closeFlipped]
      by_cases hflipped : b.flipped = true
      · rw [if_pos hflipped, List.dropWhile_cons_of_pos hflipped, ← ih hproper.2.2,
          unassign_taken hproper]
      · rw [if_neg hflipped, List.dropWhile_cons_of_neg hflipped]

/-- Closing the newest branches leaves a proper assignment. -/
theorem proper_of_suffix {branches rest : List Branch} (hsuffix : rest <:+ branches)
    (hproper : Assignment.Proper F (taken firstPhase branches ++ base)) :
    Assignment.Proper F (taken firstPhase rest ++ base) := by
  obtain ⟨closed, rfl⟩ := hsuffix
  induction closed with
  | nil => exact hproper
  | cons b more ih => exact ih hproper.2.2

/-! ## Backtracking -/

variable {settings : Settings} {p : Position State}

/-- The position after a flip, above the given branches. -/
def flipped (F : Formula) (settings : Settings) (base : Assignment) (p : Position State)
    (v : Nat) (rest : List Branch) : Position State :=
  { p.more settings (.flip v (!settings.firstPhase) (rest.length + 1)) with
    state := State.along F (taken settings.firstPhase (⟨v, true⟩ :: rest) ++ base)
    branches := ⟨v, true⟩ :: rest }

/-- The newest branch that is not flipped gets its other value. -/
theorem backtrack_of_open (hp : Mirrors F settings.firstPhase base p) {b : Branch}
    {rest : List Branch} (hopen : p.branches.dropWhile Branch.flipped = b :: rest) :
    backtrack F settings p = (flipped F settings base p b.var rest, .ok true) ∧
      Mirrors F settings.firstPhase base (flipped F settings base p b.var rest) := by
  have hclose := closeFlipped_along hp.proper
  have hproper := proper_of_suffix (List.dropWhile_suffix Branch.flipped) hp.proper
  rw [hopen] at hclose hproper
  constructor
  · simp only [backtrack, hp.state_eq, hclose, unassign_taken hproper, assign_taken hproper]
    simp [flipped, Position.more, Exploration.flip, Counters.plus, noted, record]
  · exact ⟨rfl, hproper⟩

/-- Without a branch that is not flipped everything is taken back. -/
theorem backtrack_of_closed (hp : Mirrors F settings.firstPhase base p)
    (hclosed : p.branches.dropWhile Branch.flipped = []) :
    backtrack F settings p =
      ({ p with state := State.along F base, branches := [] }, .ok false) := by
  have hclose := closeFlipped_along hp.proper
  rw [hclosed] at hclose
  simp only [backtrack, hp.state_eq, hclose]
  rfl

/-! ## Stepping -/

/-- A step looks for a conflict, then for a solution, and then at the budgets. -/
theorem step_eq (hp : Mirrors F firstPhase base p) :
    step F settings p =
      if F.clauses.any (Assignment.falsifies (taken firstPhase p.branches ++ base)) then
        resolve F settings p
      else if F.clauses.all (Assignment.satisfies (taken firstPhase p.branches ++ base)) then
        (p, .finished .sat)
      else proceed F settings p := by
  have hconflict := hasConflict_board_along hp.proper
  have hsolved := isSolved_board_along F (taken firstPhase p.branches ++ base)
  rw [← hp.state_eq] at hconflict hsolved
  rw [step, hconflict, hsolved]
  cases F.clauses.any (Assignment.falsifies (taken firstPhase p.branches ++ base)) with
  | true => rfl
  | false => cases F.clauses.all (Assignment.satisfies _) <;> rfl

/-- Neither the conflicts nor the time are limited. -/
structure Settings.Unlimited (settings : Settings) : Prop where
  conflictBudget_eq : settings.conflictBudget = none
  not_expired : ∀ decisions, settings.expired decisions = false

theorem Settings.Unlimited.withinBudget {settings : Settings} (h : settings.Unlimited)
    (counters : Counters) : withinBudget settings counters = true := by
  simp [Search.withinBudget, h.conflictBudget_eq, h.not_expired]

theorem proceed_of_stopped (hp : Mirrors F firstPhase base p)
    (hstop : withinBudget settings p.counters = false) :
    proceed F settings p =
      ({ p with state := State.along F base, branches := [] }, .finished .undecided) := by
  -- with no branch left, what has been assigned is what had been at the beginning
  have hunwind := unwind_along 0 hp.proper
  rw [Nat.sub_zero, List.drop_length, taken_nil, List.nil_append, ← hp.state_eq] at hunwind
  simp only [proceed, hstop, Bool.not_false, if_true, giveUp, hunwind]

/-- The position after a decision. -/
def decided (F : Formula) (settings : Settings) (base : Assignment) (p : Position State)
    (v : Nat) : Position State :=
  { p.more settings (.decision v settings.firstPhase (p.branches.length + 1)) with
    state := State.along F (taken settings.firstPhase (⟨v, false⟩ :: p.branches) ++ base)
    branches := ⟨v, false⟩ :: p.branches }

/-- Within the budgets the lowest free variable is decided. -/
theorem proceed_of_free (hp : Mirrors F settings.firstPhase base p) {v : Nat}
    (hbudget : withinBudget settings p.counters = true)
    (hfree : Assignment.firstFree? F (taken settings.firstPhase p.branches ++ base) = some v) :
    proceed F settings p = (decided F settings base p v, .running) ∧
      Mirrors F settings.firstPhase base (decided F settings base p v) := by
  obtain ⟨⟨hlow, hhigh⟩, hvalue⟩ := Assignment.firstFree?_eq_some hfree
  have hquery := firstFree?_board_along F (taken settings.firstPhase p.branches ++ base)
  have hassign := assign_board_along hlow hhigh hvalue settings.firstPhase
  rw [← hp.state_eq] at hquery hassign
  rw [hfree] at hquery
  constructor
  · simp only [proceed, hbudget, Bool.not_true, hquery, branch, hassign]
    simp [decided, Position.more, Exploration.decision, Counters.plus, noted, record]
    rfl
  · exact ⟨rfl, ⟨hlow, hhigh⟩, hvalue, hp.proper⟩

end TrailSat.Search
