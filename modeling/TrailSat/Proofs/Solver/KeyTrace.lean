import Mathlib.Data.List.Perm.Subperm
import TrailSat.Proofs.Solver.FirstSolution
import TrailSat.Proofs.Solver.OpenBranches
import TrailSat.Proofs.Solver.Recording
import TrailSat.Proofs.Trace.KeySteps

/-!
# The key trace is the path on which a search stopped

`key` knows nothing of searches, it prunes a text.  On the trace of a search it leaves the path of
the open branches: on a justified trace the steps that it keeps are the path of a reader
(`Justified.keySteps_eq`), and the path of the recorded events is that of the branches
(`Recorded.path_eq`).

`keyPath_of_solve` says what can be learnt from the key trace: where the search stopped, and if a
solution was found, all literals that have been added to reach it.  It goes down level by level, and
along variables of growing number, as every branch is on the lowest variable that was free when it
was opened (`LowestFirst`).
-/

namespace TrailSat

open Number Search Trace

/-- The variable of an event. -/
def Trace.Event.var (e : Event) : Nat :=
  e.literal.natAbs

/-! ## The branches of a search -/

theorem Assignment.Proper.length_le {F : Formula} {a : Assignment} (ha : a.Proper F) :
    a.length ≤ F.numVars := by
  have hsubset : a.map Prod.fst ⊆ List.range' 1 F.numVars := by
    intro v hv
    obtain ⟨e, he, rfl⟩ := List.mem_map.1 hv
    obtain ⟨hlow, hhigh⟩ := ha.inRange_of_mem he
    rw [List.mem_range'_1]
    omega
  have hlength := (ha.nodup.subperm hsubset).length_le
  simpa using hlength

namespace Search

/-- Every branch is on the variable that was the lowest free one below it. -/
def LowestFirst (F : Formula) (firstPhase : Bool) (base : Assignment) : List Branch → Prop
  | [] => True
  | b :: rest =>
    (taken firstPhase rest ++ base).firstFree? F = some b.var ∧ LowestFirst F firstPhase base rest

variable {F : Formula} {firstPhase : Bool} {settings : Settings} {base : Assignment}
variable {p q : Position State} {b : Branch} {branches closed rest : List Branch}

theorem LowestFirst.of_append (h : LowestFirst F firstPhase base (closed ++ rest)) :
    LowestFirst F firstPhase base rest := by
  induction closed with
  | nil => exact h
  | cons b more ih => exact ih h.2

/-- The branches below the newest one are on lower variables. -/
theorem LowestFirst.var_lt (h : LowestFirst F firstPhase base (b :: rest)) :
    ∀ c ∈ rest, c.var < b.var := by
  induction rest generalizing b with
  | nil => exact nofun
  | cons c more ih =>
      obtain ⟨hb, hc, hmore⟩ := h
      have hfree := (Assignment.firstFree?_eq_some hb).2
      have hlow := (Assignment.firstFree?_eq_some hb).1.1
      -- everything below the variable of `c` had a value, and it has one now
      have hlt : c.var < b.var := by
        rw [taken, List.map_cons, List.cons_append, Assignment.value?_cons] at hfree
        by_cases heq : b.var = c.var
        · rw [if_pos heq] at hfree
          cases hfree
        · rw [if_neg heq] at hfree
          by_contra hle
          obtain ⟨value, hvalue⟩ := Assignment.assigned_of_lt hc hlow (by omega)
          rw [taken, hfree] at hvalue
          cases hvalue
      intro d hd
      rcases List.mem_cons.1 hd with rfl | hd
      · exact hlt
      · exact Nat.lt_trans (ih ⟨hc, hmore⟩ d hd) hlt

theorem LowestFirst.pairwise (h : LowestFirst F firstPhase base branches) :
    ((branches.map Branch.var).reverse).Pairwise (· < ·) := by
  rw [List.pairwise_reverse]
  induction branches with
  | nil => exact .nil
  | cons b rest ih =>
      refine List.Pairwise.cons ?_ (ih h.2)
      exact List.forall_mem_map.2 h.var_lt

/-! ## What has been recorded of them -/

/-- At a position of a search the recorded events are readable and lead to the branches, which are
on the lowest variables. -/
structure Pathed (F : Formula) (settings : Settings) (base : Assignment)
    (p : Position State) : Prop where
  recorded : Recorded F settings base p
  lowest : LowestFirst F settings.firstPhase base p.branches
  readable : ∀ e ∈ p.events.reverse, IsReadable e.level

theorem readable_concat {events : List Event} (hevents : ∀ e ∈ events, IsReadable e.level)
    (hq : Mirrors F firstPhase base q) {kind : Kind} {literal : Int} :
    ∀ e ∈ events ++ [⟨kind, literal, q.branches.length⟩], IsReadable e.level := by
  have hlength : q.branches.length ≤ F.numVars := by
    have hle := hq.proper.length_le
    rw [List.length_append, taken, List.length_map] at hle
    omega
  intro e he
  rcases List.mem_append.1 he with he | he
  · exact hevents e he
  · rw [List.mem_singleton.1 he]
    exact F.isReadable_of_le (by simpa using hlength)

theorem pathed_of_step (hrecord : settings.recordTrace = true) (hp : Pathed F settings base p)
    (hstep : step F settings p = (q, .running)) : Pathed F settings base q := by
  have hrecorded := recorded_of_step hrecord hp.recorded hstep
  have hlowest := hp.lowest
  have hstepped := stepped_of_mirrors hp.recorded.mirrors
  rw [hstep] at hstepped
  cases hstepped with
  | flip closed v rest hconflict hbranches hclosed hnext =>
      rw [hbranches] at hlowest
      refine ⟨hrecorded, hlowest.of_append, ?_⟩
      rw [events_flipped hrecord]
      exact readable_concat hp.readable hnext
  | decide v hconflict hsolved hbudget hfree hnext =>
      refine ⟨hrecorded, ⟨hfree, hlowest⟩, ?_⟩
      rw [events_decided hrecord]
      exact readable_concat hp.readable hnext

/-! ## The steps of the branches -/

/-- The value that a branch is trying. -/
def Branch.value (firstPhase : Bool) (b : Branch) : Bool :=
  if b.flipped then !firstPhase else firstPhase

theorem literal_event (firstPhase : Bool) (b : Branch) (level : Nat) :
    (b.event firstPhase level).literal = State.literalOf b.var (b.value firstPhase) := by
  unfold Branch.event Branch.value
  cases b.flipped <;> rfl

theorem literals_openEvents (firstPhase : Bool) (branches : List Branch) :
    (openEvents firstPhase branches).map Event.literal =
      (branches.map fun b => State.literalOf b.var (b.value firstPhase)).reverse := by
  induction branches with
  | nil => rfl
  | cons b rest ih =>
      rw [openEvents, List.map_append, ih, List.map_singleton, literal_event, List.map_cons,
        List.reverse_cons]

theorem vars_openEvents (firstPhase : Bool) (branches : List Branch) :
    (openEvents firstPhase branches).map Event.var = (branches.map Branch.var).reverse := by
  have hvars : (openEvents firstPhase branches).map Event.var =
      ((openEvents firstPhase branches).map Event.literal).map Int.natAbs := by
    rw [List.map_map]
    rfl
  rw [hvars, literals_openEvents, ← List.map_reverse, ← List.map_reverse, List.map_map]
  refine List.map_congr_left fun b _ => ?_
  exact Assignment.natAbs_literalOf b.var (b.value firstPhase)

theorem exists_of_mem_openEvents {e : Event} (h : e ∈ openEvents firstPhase branches) :
    ∃ b ∈ branches, ∃ level, e = b.event firstPhase level := by
  induction branches with
  | nil => cases h
  | cons b rest ih =>
      rcases List.mem_append.1 h with h | h
      · obtain ⟨c, hc, level, rfl⟩ := ih h
        exact ⟨c, List.mem_cons_of_mem b hc, level, rfl⟩
      · exact ⟨b, List.mem_cons_self, rest.length + 1, List.mem_singleton.1 h⟩

/-! ## The steps at the last position -/

theorem inRange_of_mem_branches (hp : Mirrors F settings.firstPhase base p)
    (hb : b ∈ p.branches) : 1 ≤ b.var ∧ b.var ≤ F.numVars :=
  hp.proper.inRange_of_mem (List.mem_append_left base (List.mem_map_of_mem hb))

/-- The variable, the sign and the kind of the step of a branch. -/
theorem event_of_mem_openEvents (hp : Mirrors F settings.firstPhase base p) {e : Event}
    (he : e ∈ openEvents settings.firstPhase p.branches) :
    ∃ b ∈ p.branches, e.literal.natAbs = b.var ∧
      decide (0 < e.literal) = b.value settings.firstPhase ∧
      (e.kind = .flip ↔ b.flipped = true) := by
  obtain ⟨b, hb, level, rfl⟩ := exists_of_mem_openEvents he
  obtain ⟨hlow, -⟩ := inRange_of_mem_branches hp hb
  have hsign := ((Assignment.eq_literalOf_iff hlow).1
    (rfl : State.literalOf b.var (b.value settings.firstPhase) = _)).2
  refine ⟨b, hb, ?_, ?_, ?_⟩
  · rw [literal_event, Assignment.natAbs_literalOf]
  · rw [literal_event, ← hsign]
  · unfold Branch.event
    cases b.flipped <;> simp

/-- The step that ends a search records nothing. -/
theorem events_of_finished {verdict : Verdict}
    (hp : Mirrors F settings.firstPhase base p)
    (hstep : step F settings p = (q, .finished verdict)) : q.events = p.events := by
  have hstepped := stepped_of_mirrors hp
  rw [hstep] at hstepped
  cases hstepped with
  | exhausted hconflict hclosed => rw [Position.more_conflict]
  | solved hconflict hsolved => rfl
  | stopped hconflict hsolved hbudget => rfl

theorem key_of_pathed (hp : Pathed F settings base p) :
    key (text p.events.reverse) = .ok (text (openEvents settings.firstPhase p.branches)) := by
  rw [key_text hp.readable, hp.recorded.justified.keySteps_eq, hp.recorded.path_eq, text_eq_steps]

theorem literals_of_mirrors (hp : Mirrors F settings.firstPhase base p) :
    literals (text (openEvents settings.firstPhase p.branches)) =
      .ok ((openEvents settings.firstPhase p.branches).map Event.literal) := by
  refine literals_text fun e he => ?_
  obtain ⟨b, hb, hvar, -⟩ := event_of_mem_openEvents hp he
  apply F.isReadable_of_le
  rw [hvar]
  exact (inRange_of_mem_branches hp hb).2

/-- The true literals are those that had been true before and those of the branches. -/
theorem mem_literals_of_mirrors (hbase : base.Proper F)
    (hp : Mirrors F settings.firstPhase base p) (l : Int) :
    l ∈ p.state.literals ↔ l ∈ (State.along F base).literals ∨
      l ∈ (openEvents settings.firstPhase p.branches).map Event.literal := by
  rw [hp.state_eq, State.mem_literals_along hp.proper, State.mem_literals_along hbase,
    literals_openEvents, List.mem_reverse, List.mem_map]
  constructor
  · rintro ⟨e, he, rfl⟩
    rcases List.mem_append.1 he with he | he
    · obtain ⟨b, hb, rfl⟩ := List.mem_map.1 he
      exact .inr ⟨b, hb, rfl⟩
    · exact .inl ⟨e, he, rfl⟩
  · rintro (⟨e, he, rfl⟩ | ⟨b, hb, rfl⟩)
    · exact ⟨e, List.mem_append_right _ he, rfl⟩
    · exact ⟨_, List.mem_append_left base (List.mem_map_of_mem hb), rfl⟩

theorem added_of_sat (hbase : base.Proper F)
    (hp : Mirrors F settings.firstPhase base p) (hstep : step F settings p = (q, .finished .sat)) :
    let steps := openEvents settings.firstPhase p.branches
    q.state.order = (State.along F base).order ++ steps.map Event.var ∧
      (∀ e ∈ steps, q.state.IsTrue F e.literal) ∧
      ∀ l, l ∈ q.state.literals ↔
        l ∈ (State.along F base).literals ∨ l ∈ steps.map Event.literal := by
  intro steps
  have hstepped := stepped_of_mirrors hp
  rw [hstep] at hstepped
  cases hstepped with
  | solved hconflict hsolved =>
      have honTrail := onTrail_along hp.proper
      rw [← hp.state_eq] at honTrail
      refine ⟨?_, fun e he => ?_, mem_literals_of_mirrors hbase hp⟩
      · rw [honTrail.order_eq, vars_openEvents]
      · obtain ⟨b, hb, hvar, hsign, -⟩ := event_of_mem_openEvents hp he
        rw [State.IsTrue, hvar, hsign]
        exact honTrail.value_eq b hb

theorem flips_of_unsat (hp : Mirrors F settings.firstPhase base p)
    (hstep : step F settings p = (q, .finished .unsat)) :
    ∀ e ∈ openEvents settings.firstPhase p.branches,
      e.kind = .flip ∧ decide (0 < e.literal) = !settings.firstPhase := by
  have hstepped := stepped_of_mirrors hp
  rw [hstep] at hstepped
  cases hstepped with
  | exhausted hconflict hclosed =>
      intro e he
      obtain ⟨b, hb, -, hsign, hkind⟩ := event_of_mem_openEvents hp he
      have hflipped := hclosed b hb
      refine ⟨hkind.2 hflipped, ?_⟩
      rw [hsign, Branch.value, if_pos hflipped]

theorem spent_of_undecided (hp : Mirrors F settings.firstPhase base p)
    (hstep : step F settings p = (q, .finished .undecided)) :
    withinBudget settings p.counters = false := by
  have hstepped := stepped_of_mirrors hp
  rw [hstep] at hstepped
  cases hstepped with
  | stopped hconflict hsolved hbudget => exact hbudget

end Search

namespace Solver

/-- What the steps of a key trace tell about the search. -/
structure KeyPath (F : Formula) (settings : Settings) (s : State) (outcome : Outcome State)
    (verdict : Verdict) (steps : List Event) : Prop where
  /-- The key trace is the text of the steps. -/
  key_eq : key outcome.solver.trace = .ok (text steps)
  /-- Their literals can be read off this text. -/
  literals_eq : literals (text steps) = .ok (steps.map Event.literal)
  levels_eq : steps.map Event.level = List.range' 1 steps.length
  increasing : (steps.map Event.var).Pairwise (· < ·)
  /-- A flip is recognized by its sign. -/
  kind_iff : ∀ e ∈ steps, e.kind = .flip ↔ decide (0 < e.literal) ≠ settings.firstPhase
  /-- With a solution the steps are what has been assigned to reach it, in order. -/
  sat : verdict = .sat →
    outcome.state.order = s.order ++ steps.map Event.var ∧
      (∀ e ∈ steps, outcome.state.IsTrue F e.literal) ∧
      ∀ l, l ∈ outcome.state.literals ↔ l ∈ s.literals ∨ l ∈ steps.map Event.literal
  unsat : verdict = .unsat →
    ∀ e ∈ steps, e.kind = .flip ∧ decide (0 < e.literal) = !settings.firstPhase
  /-- After an early stop they are the branches that were open then. -/
  undecided : verdict = .undecided →
    ∃ last, (positions F settings (start (begin {}) s)).getLast? = some last ∧
      withinBudget settings last.counters = false ∧
      steps = openEvents settings.firstPhase last.branches

/-- **The key trace is the path on which the search stopped.**  It can be read off the trace of a
new solver on every reachable state, whatever the verdict. -/
theorem keyPath_of_solve {F : Formula} {s : State} (hs : State.Reachable F s)
    (settings : Settings) (hrecord : settings.recordTrace = true) :
    let outcome := solve F settings s {}
    ∃ verdict steps, outcome.result = .ok verdict ∧
      KeyPath F settings s outcome verdict steps := by
  obtain ⟨a, ha, rfl⟩ := State.reachable_iff_along.1 hs
  intro outcome
  have hstart : Pathed F settings a (start (begin {}) (State.along F a)) :=
    ⟨⟨⟨rfl, ha⟩, .nil, rfl⟩, trivial, nofun⟩
  obtain ⟨last, hlast, hend⟩ := exists_getLast? F settings (start (begin {}) (State.along F a))
  have hpathed : Pathed F settings a last :=
    keeps_of_mem_positions (fun _ _ => pathed_of_step hrecord) hstart last
      (List.mem_of_getLast? hlast)
  have hmirrors := hpathed.recorded.mirrors
  rcases hend with ⟨q, verdict, hstep, hrun⟩ | ⟨q, e, hstep, hrun⟩
  · have houtcome : outcome = finish (begin {}) (q, .ok verdict) :=
      congrArg (finish (begin {})) hrun
    have htrace : outcome.solver.trace = text last.events.reverse := by
      rw [houtcome, trace, events_finish, events_of_finished hmirrors hstep]
      rfl
    refine ⟨verdict, openEvents settings.firstPhase last.branches, result_of_run hrun, ?_⟩
    constructor
    case key_eq => rw [htrace, key_of_pathed hpathed]
    case literals_eq => exact literals_of_mirrors hmirrors
    case levels_eq =>
      rw [← hpathed.recorded.path_eq]
      exact hpathed.recorded.justified.levels_eq
    case increasing =>
      rw [vars_openEvents]
      exact hpathed.lowest.pairwise
    case kind_iff =>
      intro e he
      obtain ⟨b, -, -, hsign, hkind⟩ := event_of_mem_openEvents hmirrors he
      rw [hkind, hsign, Branch.value]
      cases b.flipped <;> simp
    case sat =>
      rintro rfl
      rw [houtcome]
      exact added_of_sat ha hmirrors hstep
    case unsat =>
      rintro rfl
      exact flips_of_unsat hmirrors hstep
    case undecided =>
      rintro rfl
      exact ⟨last, hlast, spent_of_undecided hmirrors hstep, rfl⟩
  · exact absurd hstep (not_failed_of_mirrors hmirrors q e)

/-- The third variable of the knot is false.  Of the six events the flips of the first and of the
second variable are left, which leads to the solution. -/
theorem keyPath_of_solve_of_knot :
    let settings : Settings := {}
    let s := State.along Formula.knot [(3, false)]
    let outcome := solve Formula.knot settings s {}
    State.Reachable Formula.knot s ∧ settings.recordTrace = true ∧
      outcome.solver.trace = "D 1 L 1 D 2 L 2 BT -2 L 2 BT -1 L 1 D 2 L 2 BT -2 L 2" ∧
      ∃ steps, KeyPath Formula.knot settings s outcome .sat steps ∧
        text steps = "BT -1 L 1 BT -2 L 2" ∧ steps.map Event.literal = [-1, -2] := by
  intro settings s outcome
  have hs : State.Reachable Formula.knot s := State.reachable_along ⟨by decide, rfl, trivial⟩
  have hsat : outcome.result = .ok .sat := result_of_toOption (by decide +kernel)
  have hkey : (key outcome.solver.trace).toOption = some "BT -1 L 1 BT -2 L 2" := by
    decide +kernel
  have hliterals : (literals "BT -1 L 1 BT -2 L 2").toOption = some [-1, -2] := by decide +kernel
  obtain ⟨verdict, steps, hresult, hpath⟩ := keyPath_of_solve hs settings rfl
  obtain rfl : verdict = .sat := Except.ok.inj (hresult.symm.trans hsat)
  rw [hpath.key_eq] at hkey
  have htext : text steps = "BT -1 L 1 BT -2 L 2" := Option.some.inj hkey
  rw [← htext, hpath.literals_eq] at hliterals
  exact ⟨hs, rfl, by decide +kernel, steps, hpath, htext, Option.some.inj hliterals⟩

end Solver

end TrailSat
