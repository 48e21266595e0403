import TrailSat.Proofs.Solver.Counting
import TrailSat.Proofs.Solver.Truncation

/-!
# How much a search can do

Two bounds, both in terms of the number of variables that are free when the search begins.

Without any limit a search stays within the binary tree over these variables (`ends_within_tree`).
The work left at a position weighs the branches that are still open with the trees below their
second values, and every round takes some of it.  As a round is a decision or a flip, and a decision
that has not been flipped leaves an open branch, the rounds count the decisions twice.

A budget of conflicts is looked at where a decision is due, so flips that lead to conflicts at once
go beyond it unseen.  How far they can go is bounded by the branches that they have left to flip
(`Spending`): these branches and the conflicts together grow at decisions only, and there the
conflicts are within the budget.  Hence the budget is exceeded at most by the number of free
variables, or by a conflict before the first decision (`conflicts_le_of_budget`).
-/

namespace TrailSat

open Search

namespace Search

variable {F : Formula} {settings : Settings} {base : Assignment} {p q last : Position State}
variable {before done : Counters} {rounds budget conflicts : Nat}

/-! ## The work left -/

/-- Below the second value of every open branch there is some work to come. -/
theorem numOpen_le_pendingWork (free : Nat) (branches : List Branch) :
    numOpen branches ≤ pendingWork free branches := by
  induction branches generalizing free with
  | nil => exact Nat.le_refl 0
  | cons b rest ih =>
      have hrest := ih (free + 1)
      have hpos := treeSize_pos free
      rw [numOpen] at hrest ⊢
      rw [pendingWork, List.countP_cons]
      cases b.flipped <;> simp <;> omega

theorem numOpen_lt_workLeft (p : Position State) : numOpen p.branches < workLeft p := by
  have hopen := numOpen_le_pendingWork (Board.numFree p.state) p.branches
  have hpos := treeSize_pos (Board.numFree p.state)
  rw [workLeft]
  omega

theorem treeSize_add_one (free : Nat) : treeSize free + 1 = 2 ^ (free + 1) := by
  induction free with
  | zero => rfl
  | succ free ih =>
      rw [treeSize_succ, Nat.pow_succ]
      omega

/-- There are no more decisions than nodes of the tree that have nodes below them. -/
theorem Counted.decisions_lt (hp : Counted F settings base before rounds p done) :
    done.decisions < 2 ^ (State.along F base).numFree := by
  have hwork := hp.work_le
  have hrounds := hp.rounds_eq
  have hdecisions := hp.decisions_eq
  have hopen := numOpen_lt_workLeft p
  have hsize := treeSize_add_one (State.along F base).numFree
  rw [Nat.pow_succ] at hsize
  omega

theorem Counted.rounds_lt (hp : Counted F settings base before rounds p done) :
    rounds + 1 < 2 ^ ((State.along F base).numFree + 1) := by
  have hwork := hp.work_le
  have hopen := numOpen_lt_workLeft p
  have hsize := treeSize_add_one (State.along F base).numFree
  omega

/-! ## Conflicts under a budget -/

/-- Under a budget the conflicts and the open branches together are limited. -/
structure Spending (F : Formula) (settings : Settings) (base : Assignment)
    (budget conflicts : Nat) (p : Position State) : Prop where
  mirrors : Mirrors F settings.firstPhase base p
  conflicts_add_lt : p.counters.conflicts + numOpen p.branches <
    max (conflicts + 1) (budget + (State.along F base).numFree)

theorem lt_of_withinBudget (hbudget : settings.conflictBudget = some budget) {counters : Counters}
    (h : withinBudget settings counters = true) : counters.conflicts < budget := by
  simp [withinBudget, hbudget] at h
  exact h.1

theorem spending_start (hbase : base.Proper F) (before : Counters) :
    Spending F settings base budget before.conflicts
      (Position.start (State.along F base) before) where
  mirrors := ⟨rfl, hbase⟩
  conflicts_add_lt := Nat.lt_of_lt_of_le (Nat.lt_succ_self _) (Nat.le_max_left ..)

theorem spending_of_step (hbudget : settings.conflictBudget = some budget)
    (hp : Spending F settings base budget conflicts p)
    (hstep : step F settings p = (q, .running)) :
    Spending F settings base budget conflicts q := by
  obtain ⟨hmirrors, hless⟩ := hp
  have hstepped := stepped_of_mirrors hmirrors
  rw [hstep] at hstepped
  cases hstepped with
  | flip closed v rest hconflict hbranches hclosed hnext =>
      -- the conflict takes the place of the branch that is flipped
      rw [hbranches, numOpen_append hclosed, ← Nat.add_assoc, Nat.add_right_comm] at hless
      refine ⟨hnext, ?_⟩
      rw [counters_flipped]
      exact hless
  | decide v hconflict hsolved hwithin hfree hnext =>
      have hspent : p.counters.conflicts < budget := lt_of_withinBudget hbudget hwithin
      have hopen := Nat.le_trans (numOpen_le_length _) (length_branches_le hnext)
      have hsum := Nat.add_lt_add_of_lt_of_le hspent hopen
      exact ⟨hnext, Nat.lt_of_lt_of_le hsum (Nat.le_max_right ..)⟩

theorem spending_of_rounds (hbudget : settings.conflictBudget = some budget)
    (h : Rounds F settings rounds p last) (hp : Spending F settings base budget conflicts p) :
    Spending F settings base budget conflicts last := by
  induction h with
  | none p => exact hp
  | more hrunning hrest ih => exact ih (spending_of_step hbudget hp hrunning)

end Search

namespace Solver

/-- **A search stays within the binary tree over the free variables.**  With `m` of them it ends
after fewer rounds than the full tree has nodes.  There is at most one decision for every inner node
and one conflict for every leaf, and no event is deeper than the tree. -/
theorem ends_within_tree {F : Formula} {s : State} (hs : State.Reachable F s)
    (settings : Settings) (solver : Solver) :
    let outcome := solver.solve F settings s
    let before := solver.counters
    let after := outcome.solver.counters
    (∃ rounds last ended verdict,
        Rounds F settings rounds (solver.begin.start s) last ∧
          step F settings last = (ended, .finished verdict) ∧
          outcome = solver.begin.finish (ended, .ok verdict) ∧
          rounds + 1 < 2 ^ (s.numFree + 1)) ∧
      after.decisions ≤ before.decisions + (2 ^ s.numFree - 1) ∧
      after.conflicts ≤ before.conflicts + 2 ^ s.numFree ∧
      ∃ events, outcome.solver.events = solver.events ++ events ∧
        ∀ e ∈ events, e.level ≤ s.numFree := by
  obtain ⟨a, ha, rfl⟩ := State.reachable_iff_along.1 hs
  intro outcome before after
  obtain ⟨rounds, last, ended, verdict, done, hrounds, hstep, houtcome, hcounted⟩ :=
    exists_counted ha settings solver
  have hevents := events_of_finished hcounted.mirrors hstep
  have hafter : after =
      (before.plus done).plus { conflicts := if verdict = .unsat then 1 else 0 } := by
    rw [← hcounted.counters_eq]
    exact counters_of_outcome houtcome hcounted.mirrors hstep
  have hdecisions := hcounted.decisions_lt
  have hflips := hcounted.decisions_eq
  have hconflicts := hcounted.conflicts_eq
  refine ⟨⟨rounds, last, ended, verdict, hrounds, hstep, houtcome, hcounted.rounds_lt⟩, ?_, ?_,
    last.events.reverse, ?_, fun e he => ?_⟩
  · simp only [hafter, Counters.plus]
    omega
  · simp only [hafter, Counters.plus]
    split <;> omega
  · rw [show outcome = _ from houtcome, events_finish, hevents]
    rfl
  · exact Nat.le_trans (hcounted.level_le e (List.mem_reverse.1 he)) hcounted.maxDepth_le

/-- The third variable of the knot is false.  The search for a solution takes all three decisions
that there are over the other two variables. -/
theorem ends_within_tree_of_knot :
    let s := State.along Formula.knot [(3, false)]
    let outcome := solve Formula.knot {} s {}
    State.Reachable Formula.knot s ∧ s.numFree = 2 ∧
      outcome.solver.counters = ⟨3, 3, 3, 2⟩ ∧
      outcome.solver.counters.decisions ≤ 2 ^ 2 - 1 ∧
      outcome.solver.counters.conflicts ≤ 2 ^ 2 ∧ ∀ e ∈ outcome.solver.events, e.level ≤ 2 := by
  intro s outcome
  have hs : State.Reachable Formula.knot s := State.reachable_along ⟨by decide, rfl, trivial⟩
  have hfree : s.numFree = 2 := by decide
  obtain ⟨-, hdecisions, hconflicts, events, hevents, hlevel⟩ := ends_within_tree hs {} {}
  rw [hfree, Nat.zero_add] at hdecisions hconflicts
  rw [hfree, ← List.nil_append events, ← hevents] at hlevel
  exact ⟨hs, hfree, by decide +kernel, hdecisions, hconflicts, hlevel⟩

/-- **A budget of conflicts is exceeded at most by the number of free variables**, or by the
conflict that is met before the first decision.  This is so for every verdict and whatever the clock
shows; and if the clock never stops the search, it gives up only when the budget is used up. -/
theorem conflicts_le_of_budget {F : Formula} {s : State} (hs : State.Reachable F s)
    (settings : Settings) (budget : Nat) (solver : Solver) :
    let outcome := solver.solve F (settings.withBudget (some budget)) s
    let conflicts := outcome.solver.counters.conflicts
    ∃ verdict, outcome.result = .ok verdict ∧
      conflicts ≤ max (solver.counters.conflicts + 1) (budget + s.numFree) ∧
      (verdict = .undecided → (∀ decisions, settings.expired decisions = false) →
        budget ≤ conflicts) := by
  obtain ⟨a, ha, rfl⟩ := State.reachable_iff_along.1 hs
  intro outcome conflicts
  obtain ⟨rounds, last, ended, verdict, done, hrounds, hstep, houtcome, hcounted⟩ :=
    exists_counted ha (settings.withBudget (some budget)) solver
  have hconflicts : conflicts =
      last.counters.conflicts + if verdict = .unsat then 1 else 0 :=
    congrArg Counters.conflicts (counters_of_outcome houtcome hcounted.mirrors hstep)
  have hspending := spending_of_rounds rfl hrounds (spending_start ha solver.counters)
  have hless := hspending.conflicts_add_lt
  refine ⟨verdict, congrArg Outcome.result houtcome, ?_, fun hundecided hclock => ?_⟩
  · split at hconflicts
    · next hunsat =>
      have hnone := (counters_of_finished hcounted.mirrors hstep).2 hunsat
      omega
    · omega
  · subst hundecided
    have hspent := spent_of_undecided hcounted.mirrors hstep
    have hbudget : budget ≤ last.counters.conflicts := by
      simpa [withinBudget, Settings.withBudget, hclock] using hspent
    omega

/-- The third variable of the knot is false.  The second variable is flipped, and so is the first
one, before the budget of one conflict is looked at again. -/
theorem conflicts_le_of_budget_of_knot :
    let settings : Settings := {}
    let s := State.along Formula.knot [(3, false)]
    let outcome := solve Formula.knot (settings.withBudget (some 1)) s {}
    State.Reachable Formula.knot s ∧ (∀ decisions, settings.expired decisions = false) ∧
      outcome.result = .ok .undecided ∧ outcome.solver.counters.conflicts = 2 ∧
      outcome.solver.counters.conflicts ≤ max 1 (1 + s.numFree) ∧
      1 ≤ outcome.solver.counters.conflicts := by
  intro settings s outcome
  have hs : State.Reachable Formula.knot s := State.reachable_along ⟨by decide, rfl, trivial⟩
  have hclock : ∀ decisions, settings.expired decisions = false := fun _ => rfl
  have hundecided : outcome.result = .ok .undecided := result_of_toOption (by decide +kernel)
  obtain ⟨verdict, hresult, hle, hspent⟩ := conflicts_le_of_budget hs settings 1 {}
  obtain rfl : verdict = .undecided := Except.ok.inj (hresult.symm.trans hundecided)
  exact ⟨hs, hclock, hundecided, by decide +kernel, hle, hspent rfl hclock⟩

end Solver

end TrailSat
