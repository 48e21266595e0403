import TrailSat.Proofs.Solver.KeyTrace

/-!
# What a search has counted

A search counts its decisions, its conflicts and its flips in different places.  What ties the
counts together are the branches that are still trying their first value, the *open* ones:

```text
             decisions   conflicts   flips   open branches   work left
a decision      + 1                              + 1         less
a flip                      + 1       + 1        - 1         less
```

So at every position there have been as many conflicts as flips, and as many decisions as flips and
open branches together (`Counted`).  Flipped branches that are closed on the way do not matter.

With them goes what every round takes from the work left (`Counted.work_le`), and how deep the
branches have been.  The round that ends a search counts a conflict without a flip if all branches
have been flipped, and nothing in the other cases (`counters_of_finished`).
-/

namespace TrailSat

open Search Trace

namespace Search

/-- The number of branches that are trying their first value. -/
def numOpen (branches : List Branch) : Nat :=
  branches.countP fun b => !b.flipped

/-- The search goes on for a number of rounds, from one position to another. -/
inductive Rounds (F : Formula) (settings : Settings) :
    Nat → Position State → Position State → Prop where
  | none (p : Position State) : Rounds F settings 0 p p
  | more {rounds : Nat} {p q last : Position State} (hstep : step F settings p = (q, .running))
      (hrest : Rounds F settings rounds q last) : Rounds F settings (rounds + 1) p last

variable {F : Formula} {settings : Settings} {base : Assignment} {p q last : Position State}
variable {before done : Counters} {rounds : Nat}

/-! ## Rounds -/

/-- After some rounds the search is ended. -/
theorem exists_rounds (F : Formula) (settings : Settings) (p : Position State) :
    ∃ rounds last, Rounds F settings rounds p last ∧
      ((∃ q verdict, step F settings last = (q, .finished verdict) ∧
          run F settings p = (q, .ok verdict)) ∨
        ∃ q e, step F settings last = (q, .failed e) ∧ run F settings p = (q, .error e)) := by
  -- a round that goes on, one with a verdict, and one that fails
  fun_induction run F settings p with
  | case1 p q hrunning hless ih =>
      obtain ⟨rounds, last, hrounds, hend⟩ := ih
      exact ⟨rounds + 1, last, .more hrunning hrounds, hend⟩
  | case2 p q verdict hfinished => exact ⟨0, p, .none p, .inl ⟨q, verdict, hfinished, rfl⟩⟩
  | case3 p q e hfailed => exact ⟨0, p, .none p, .inr ⟨q, e, hfailed, rfl⟩⟩

theorem getLast?_of_rounds (h : Rounds F settings rounds p last)
    (hended : ∀ q, step F settings last ≠ (q, .running)) :
    (positions F settings p).getLast? = some last := by
  induction h with
  | none p =>
      rw [positions_of_ended hended]
      rfl
  | more hrunning hrest ih =>
      rw [positions_of_running hrunning, List.getLast?_cons, ih hended]
      rfl

/-! ## Branches -/

theorem numOpen_le_length (branches : List Branch) : numOpen branches ≤ branches.length :=
  List.countP_le_length

theorem numOpen_of_flipped {branches : List Branch} (h : ∀ b ∈ branches, b.flipped = true) :
    numOpen branches = 0 := by
  rw [numOpen, List.countP_eq_zero]
  intro b hb
  simp [h b hb]

/-- A flip closes the newest open branch and leaves those below. -/
theorem numOpen_append {closed : List Branch} (hclosed : ∀ b ∈ closed, b.flipped = true) (v : Nat)
    (rest : List Branch) : numOpen (closed ++ ⟨v, false⟩ :: rest) = numOpen rest + 1 := by
  have hzero := numOpen_of_flipped hclosed
  rw [numOpen] at hzero ⊢
  rw [List.countP_append, hzero, Nat.zero_add, List.countP_cons_of_pos rfl, numOpen]

/-- The variables of the branches were free in the beginning. -/
theorem numFree_add_length {firstPhase : Bool} {branches : List Branch}
    (hproper : Assignment.Proper F (taken firstPhase branches ++ base)) :
    (State.along F (taken firstPhase branches ++ base)).numFree + branches.length =
      (State.along F base).numFree := by
  induction branches with
  | nil => rfl
  | cons b rest ih =>
      have hone : (State.along F (taken firstPhase rest ++ base)).numFree =
          (State.along F (taken firstPhase (b :: rest) ++ base)).numFree + 1 :=
        Board.numFree_unassign (unassign_taken hproper)
      have hrest := ih hproper.2.2
      rw [List.length_cons]
      omega

theorem length_branches_le (hp : Mirrors F settings.firstPhase base p) :
    p.branches.length ≤ (State.along F base).numFree := by
  have hfree := numFree_add_length hp.proper
  omega

/-! ## Counters -/

/-- What events tell about the counters of the search that has recorded them. -/
structure Tallies (events : List Event) (done : Counters) : Prop where
  decisions_eq : done.decisions = events.countP fun e => e.kind = .decision
  backtracks_eq : done.backtracks = events.countP fun e => e.kind = .flip
  maxDepth_eq : done.maxDepth = (events.map Event.level).foldl max 0

theorem Tallies.decision {events : List Event} (h : Tallies events done) (literal : Int)
    (level : Nat) :
    Tallies (events ++ [⟨.decision, literal, level⟩])
      (done.plus { decisions := 1, maxDepth := level }) := by
  obtain ⟨hdecisions, hbacktracks, hmaxDepth⟩ := h
  constructor
  · simp [Counters.plus, hdecisions]
  · simp [Counters.plus, hbacktracks]
  · simp [Counters.plus, hmaxDepth]

/-- A flip is at most as deep as the decision that it takes back. -/
theorem Tallies.flip {events : List Event} (h : Tallies events done) (literal : Int)
    {level : Nat} (hlevel : level ≤ done.maxDepth) :
    Tallies (events ++ [⟨.flip, literal, level⟩])
      (done.plus { conflicts := 1, backtracks := 1 }) := by
  obtain ⟨hdecisions, hbacktracks, hmaxDepth⟩ := h
  constructor
  · simp [Counters.plus, hdecisions]
  · simp [Counters.plus, hbacktracks]
  · simp [Counters.plus, ← hmaxDepth, hlevel]

theorem counters_flipped (v : Nat) (rest : List Branch) :
    (flipped F settings base (p.more settings .conflict) v rest).counters =
      p.counters.plus { conflicts := 1, backtracks := 1 } := by
  simp [flipped, Position.more, Exploration.flip, Exploration.conflict, Counters.plus]

theorem counters_decided (v : Nat) :
    (decided F settings base p v).counters =
      p.counters.plus { decisions := 1, maxDepth := p.branches.length + 1 } :=
  rfl

theorem level_of_mem_flipped {v : Nat} {rest : List Branch} {e : Event}
    (h : e ∈ (flipped F settings base (p.more settings .conflict) v rest).events) :
    e.level = rest.length + 1 ∨ e ∈ p.events := by
  simp only [flipped, Position.more, Exploration.flip, Exploration.conflict, noted] at h
  split at h
  · rcases List.mem_cons.1 h with rfl | h
    · exact .inl rfl
    · exact .inr h
  · exact .inr h

theorem level_of_mem_decided {v : Nat} {e : Event}
    (h : e ∈ (decided F settings base p v).events) :
    e.level = p.branches.length + 1 ∨ e ∈ p.events := by
  simp only [decided, Position.more, Exploration.decision, noted] at h
  split at h
  · rcases List.mem_cons.1 h with rfl | h
    · exact .inl rfl
    · exact .inr h
  · exact .inr h

/-- What a search has counted in a number of rounds. -/
structure Counted (F : Formula) (settings : Settings) (base : Assignment) (before : Counters)
    (rounds : Nat) (p : Position State) (done : Counters) : Prop where
  mirrors : Mirrors F settings.firstPhase base p
  counters_eq : p.counters = before.plus done
  rounds_eq : rounds = done.decisions + done.backtracks
  conflicts_eq : done.conflicts = done.backtracks
  decisions_eq : done.decisions = done.backtracks + numOpen p.branches
  /-- The branches are not deeper than the deepest decision. -/
  length_le : p.branches.length ≤ done.maxDepth
  maxDepth_le : done.maxDepth ≤ (State.along F base).numFree
  level_le : ∀ e ∈ p.events, e.level ≤ done.maxDepth
  work_le : rounds + workLeft p ≤ treeSize (State.along F base).numFree
  tallies : settings.recordTrace = true → Tallies p.events.reverse done

theorem counted_start (hbase : base.Proper F) (settings : Settings) (before : Counters) :
    Counted F settings base before 0 (Position.start (State.along F base) before) {} where
  mirrors := ⟨rfl, hbase⟩
  counters_eq := by simp [Position.start, Counters.plus]
  rounds_eq := rfl
  conflicts_eq := rfl
  decisions_eq := rfl
  length_le := Nat.le_refl 0
  maxDepth_le := Nat.zero_le _
  level_le := nofun
  work_le := Nat.le_of_eq (Nat.zero_add _)
  tallies _ := ⟨rfl, rfl, rfl⟩

theorem counted_of_flip (hp : Counted F settings base before rounds p done)
    {closed rest : List Branch} {v : Nat} (hbranches : p.branches = closed ++ ⟨v, false⟩ :: rest)
    (hclosed : ∀ b ∈ closed, b.flipped = true)
    (hnext : Mirrors F settings.firstPhase base
      (flipped F settings base (p.more settings .conflict) v rest))
    (hless : workLeft (flipped F settings base (p.more settings .conflict) v rest) < workLeft p) :
    Counted F settings base before (rounds + 1)
      (flipped F settings base (p.more settings .conflict) v rest)
      (done.plus { conflicts := 1, backtracks := 1 }) := by
  have hopen : numOpen p.branches = numOpen rest + 1 := by
    rw [hbranches, numOpen_append hclosed]
  -- the branch was there before it is flipped, so this depth has been reached
  have hlevel : rest.length + 1 ≤ done.maxDepth := by
    have hlength := hp.length_le
    rw [hbranches, List.length_append, List.length_cons] at hlength
    omega
  have hmaxDepth : (done.plus { conflicts := 1, backtracks := 1 }).maxDepth = done.maxDepth :=
    Nat.max_zero _
  constructor
  case mirrors => exact hnext
  case counters_eq => rw [counters_flipped, hp.counters_eq, Counters.plus_assoc]
  case rounds_eq =>
    have hrounds := hp.rounds_eq
    simp only [Counters.plus]
    omega
  case conflicts_eq => simp only [Counters.plus, hp.conflicts_eq]
  case decisions_eq =>
    have hdecisions := hp.decisions_eq
    -- the flipped branch is not open any more, and those that were closed have not been
    have hrest : numOpen (⟨v, true⟩ :: rest) = numOpen rest := rfl
    simp only [Counters.plus, flipped, hrest]
    omega
  case length_le =>
    rw [hmaxDepth]
    exact hlevel
  case maxDepth_le =>
    rw [hmaxDepth]
    exact hp.maxDepth_le
  case level_le =>
    rw [hmaxDepth]
    intro e he
    rcases level_of_mem_flipped he with hlast | he
    · rw [hlast]
      exact hlevel
    · exact hp.level_le e he
  case work_le =>
    have hwork := hp.work_le
    omega
  case tallies =>
    intro hrecord
    rw [events_flipped hrecord]
    exact (hp.tallies hrecord).flip _ hlevel

theorem counted_of_decide (hp : Counted F settings base before rounds p done) {v : Nat}
    (hnext : Mirrors F settings.firstPhase base (decided F settings base p v))
    (hless : workLeft (decided F settings base p v) < workLeft p) :
    Counted F settings base before (rounds + 1) (decided F settings base p v)
      (done.plus { decisions := 1, maxDepth := p.branches.length + 1 }) := by
  have hdeeper : p.branches.length + 1 ≤ max done.maxDepth (p.branches.length + 1) :=
    Nat.le_max_right ..
  constructor
  case mirrors => exact hnext
  case counters_eq => rw [counters_decided, hp.counters_eq, Counters.plus_assoc]
  case rounds_eq =>
    have hrounds := hp.rounds_eq
    simp only [Counters.plus]
    omega
  case conflicts_eq => simp only [Counters.plus, hp.conflicts_eq]
  case decisions_eq =>
    have hdecisions := hp.decisions_eq
    have hopen : numOpen (⟨v, false⟩ :: p.branches) = numOpen p.branches + 1 :=
      List.countP_cons_of_pos rfl
    simp only [Counters.plus, decided, hopen]
    omega
  case length_le => exact hdeeper
  -- each branch has taken a variable that was free at the start
  case maxDepth_le => exact Nat.max_le.2 ⟨hp.maxDepth_le, length_branches_le hnext⟩
  case level_le =>
    intro e he
    rcases level_of_mem_decided he with hlast | he
    · rw [hlast]
      exact hdeeper
    · exact Nat.le_trans (hp.level_le e he) (Nat.le_max_left ..)
  case work_le =>
    have hwork := hp.work_le
    omega
  case tallies =>
    intro hrecord
    rw [events_decided hrecord]
    exact (hp.tallies hrecord).decision _ _

/-- Every round is a flip or a decision. -/
theorem counted_of_step (hp : Counted F settings base before rounds p done)
    (hstep : step F settings p = (q, .running)) :
    ∃ more, Counted F settings base before (rounds + 1) q more := by
  have hless := workLeft_step_lt hstep
  have hstepped := stepped_of_mirrors hp.mirrors
  rw [hstep] at hstepped
  cases hstepped with
  | flip closed v rest hconflict hbranches hclosed hnext =>
      exact ⟨_, counted_of_flip hp hbranches hclosed hnext hless⟩
  | decide v hconflict hsolved hbudget hfree hnext =>
      exact ⟨_, counted_of_decide hp hnext hless⟩

theorem counted_of_rounds {more : Nat} (h : Rounds F settings more p last)
    (hp : Counted F settings base before rounds p done) :
    ∃ done, Counted F settings base before (rounds + more) last done := by
  induction h generalizing rounds done with
  | none p => exact ⟨done, hp⟩
  | @more more p q last hrunning hrest ih =>
      obtain ⟨later, hq⟩ := counted_of_step hp hrunning
      rw [← Nat.add_assoc, Nat.add_right_comm]
      exact ih hq

/-- The round that ends a search counts a last conflict if all branches have been flipped, and
nothing otherwise. -/
theorem counters_of_finished {verdict : Verdict} (hp : Mirrors F settings.firstPhase base p)
    (hstep : step F settings p = (q, .finished verdict)) :
    q.counters = p.counters.plus { conflicts := if verdict = .unsat then 1 else 0 } ∧
      (verdict = .unsat → numOpen p.branches = 0) := by
  have hstepped := stepped_of_mirrors hp
  rw [hstep] at hstepped
  -- that a budget is spent or a solution is found is not counted
  cases hstepped with
  | exhausted hconflict hclosed => exact ⟨rfl, fun _ => numOpen_of_flipped hclosed⟩
  | solved hconflict hsolved => exact ⟨by simp [Counters.plus], fun hunsat => by cases hunsat⟩
  | stopped hconflict hsolved hbudget =>
      exact ⟨by simp [Counters.plus], fun hunsat => by cases hunsat⟩

end Search

namespace Solver

/-- How the counters account for the events of a search and for the branches on which it stopped. -/
structure Accounts (events : List Event) (verdict : Verdict) (branches : List Branch)
    (before after : Counters) : Prop where
  decisions_eq : after.decisions = before.decisions + events.countP fun e => e.kind = .decision
  backtracks_eq : after.backtracks = before.backtracks + events.countP fun e => e.kind = .flip
  maxDepth_eq :
    after.maxDepth = max before.maxDepth ((events.map Event.level).foldl max 0)
  /-- All conflicts have led to flips, and the decisions that have not been flipped are open. -/
  stopped : verdict ≠ .unsat →
    after.conflicts + before.backtracks = before.conflicts + after.backtracks ∧
      after.decisions + before.backtracks =
        before.decisions + after.backtracks + numOpen branches
  /-- The last conflict has not led to a flip, and every decision has been flipped. -/
  unsat : verdict = .unsat →
    after.conflicts + before.backtracks = before.conflicts + after.backtracks + 1 ∧
      after.decisions + before.backtracks = before.decisions + after.backtracks

theorem counters_finish (solver : Solver) (ended : Position State × Except AssignError Verdict) :
    (solver.finish ended).solver.counters = ended.1.counters := by
  obtain ⟨q, e | verdict⟩ := ended
  · rfl
  · cases verdict <;> rfl

theorem counters_of_outcome {F : Formula} {settings : Settings} {base : Assignment}
    {solver : Solver} {last ended : Position State} {verdict : Verdict} {outcome : Outcome State}
    (houtcome : outcome = solver.finish (ended, .ok verdict))
    (hlast : Mirrors F settings.firstPhase base last)
    (hstep : step F settings last = (ended, .finished verdict)) :
    outcome.solver.counters =
      last.counters.plus { conflicts := if verdict = .unsat then 1 else 0 } := by
  rw [houtcome, counters_finish]
  exact (counters_of_finished hlast hstep).1

theorem accounts_of_counted {F : Formula} {settings : Settings} {base : Assignment}
    {before done : Counters} {rounds : Nat} {last ended : Position State} {verdict : Verdict}
    (hrecord : settings.recordTrace = true)
    (hlast : Counted F settings base before rounds last done)
    (hstep : step F settings last = (ended, .finished verdict)) :
    Accounts last.events.reverse verdict last.branches before ended.counters := by
  obtain ⟨hended, hopen⟩ := counters_of_finished hlast.mirrors hstep
  rw [hlast.counters_eq] at hended
  have hconflicts := hlast.conflicts_eq
  have hdecisions := hlast.decisions_eq
  have htallies := hlast.tallies hrecord
  constructor
  case decisions_eq => simp [hended, Counters.plus, htallies.decisions_eq]
  case backtracks_eq => simp [hended, Counters.plus, htallies.backtracks_eq]
  case maxDepth_eq => simp [hended, Counters.plus, htallies.maxDepth_eq]
  case stopped =>
    intro hverdict
    simp only [hended, Counters.plus, if_neg hverdict]
    omega
  case unsat =>
    intro hverdict
    -- no decision is left to be flipped, and the last conflict has no flip
    have hnone := hopen hverdict
    simp only [hended, Counters.plus, if_pos hverdict]
    omega

/-- A search is ended after some rounds, with what it has counted in them. -/
theorem exists_counted {F : Formula} {a : Assignment} (ha : a.Proper F) (settings : Settings)
    (solver : Solver) :
    ∃ rounds last ended verdict done,
      Rounds F settings rounds (solver.begin.start (State.along F a)) last ∧
      step F settings last = (ended, .finished verdict) ∧
      solver.solve F settings (State.along F a) = solver.begin.finish (ended, .ok verdict) ∧
      Counted F settings a solver.counters rounds last done := by
  obtain ⟨rounds, last, hrounds, hend⟩ :=
    exists_rounds F settings (solver.begin.start (State.along F a))
  obtain ⟨done, hcounted⟩ := counted_of_rounds hrounds (counted_start ha settings solver.counters)
  rw [Nat.zero_add] at hcounted
  rcases hend with ⟨ended, verdict, hfinished, hrun⟩ | ⟨ended, e, hfailed, -⟩
  · exact ⟨rounds, last, ended, verdict, done, hrounds, hfinished,
      congrArg solver.begin.finish hrun, hcounted⟩
  · -- branches that mirror the trail can always be closed
    exact absurd hfailed (not_failed_of_mirrors hcounted.mirrors ended e)

/-- **The counters account for the search.**  Whatever has been counted before, decisions and flips
go up by the events of their kind, and the depth to the deepest event.  Conflicts go up with the
flips, except for the last conflict of a search that finds no solution; and the decisions that have
not been flipped are the branches still open at the last position. -/
theorem accounts_of_solve {F : Formula} {s : State} (hs : State.Reachable F s)
    (settings : Settings) (hrecord : settings.recordTrace = true) (solver : Solver) :
    let outcome := solver.solve F settings s
    ∃ verdict events last, outcome.result = .ok verdict ∧
      outcome.solver.events = solver.events ++ events ∧
      (positions F settings (solver.begin.start s)).getLast? = some last ∧
      Accounts events verdict last.branches solver.counters outcome.solver.counters := by
  obtain ⟨a, ha, rfl⟩ := State.reachable_iff_along.1 hs
  intro outcome
  obtain ⟨rounds, last, ended, verdict, done, hrounds, hstep, houtcome, hcounted⟩ :=
    exists_counted ha settings solver
  have hevents := events_of_finished hcounted.mirrors hstep
  have hlast : ∀ q, step F settings last ≠ (q, .running) := by simp [hstep]
  refine ⟨verdict, last.events.reverse, last, ?_, ?_, getLast?_of_rounds hrounds hlast, ?_⟩
  · exact congrArg Outcome.result houtcome
  · rw [show outcome = _ from houtcome, events_finish, hevents]
    rfl
  · rw [show outcome = _ from houtcome, counters_finish]
    exact accounts_of_counted hrecord hcounted hstep

/-- The second variable of the knot is true, and false is tried first.  The first decision is still
open when the second one has been flipped, which leads to the solution. -/
theorem accounts_of_solve_of_knot :
    let settings : Settings := { firstPhase := false }
    let s := State.along Formula.knot [(2, true)]
    let solver : Solver := { counters := ⟨5, 4, 3, 1⟩ }
    let outcome := solver.solve Formula.knot settings s
    State.Reachable Formula.knot s ∧ settings.recordTrace = true ∧
      outcome.result = .ok .sat ∧ outcome.solver.counters = ⟨7, 5, 4, 2⟩ ∧
      ∃ events last, outcome.solver.events = events ∧
        (positions Formula.knot settings (solver.begin.start s)).getLast? = some last ∧
        last.branches = [⟨3, true⟩, ⟨1, false⟩] ∧
        Accounts events .sat last.branches solver.counters outcome.solver.counters := by
  intro settings s solver outcome
  have hs : State.Reachable Formula.knot s := State.reachable_along ⟨by decide, rfl, trivial⟩
  have hsat : outcome.result = .ok .sat := result_of_toOption (by decide +kernel)
  have hbranches : (positions Formula.knot settings (solver.begin.start s)).getLast?.map
      Position.branches = some [⟨3, true⟩, ⟨1, false⟩] := by
    decide +kernel
  obtain ⟨verdict, events, last, hresult, hevents, hlast, haccounts⟩ :=
    accounts_of_solve hs settings rfl solver
  obtain rfl : verdict = .sat := Except.ok.inj (hresult.symm.trans hsat)
  rw [hlast] at hbranches
  exact ⟨hs, rfl, hsat, by decide +kernel, events, last, hevents, hlast,
    Option.some.inj hbranches, haccounts⟩

end Solver

end TrailSat
