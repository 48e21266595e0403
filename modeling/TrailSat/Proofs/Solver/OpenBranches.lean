import TrailSat.Proofs.Search.Positions
import TrailSat.Proofs.Solver.Restoration

/-!
# Open branches and the trail

A search keeps its branches and the trail of its state apart and changes them in different places.
`OnTrail` says how they belong together: the variables of the branches are those assigned since the
search began, in order, and a branch tells by its flag which value its variable has.

`never_fails` says that they stay together from the first position to the last, also while branches
are closed, and what follows from it: no assignment that a search asks for is refused and none that
it takes back, and wherever it has to decide there is a variable to be decided.  The budgets and the
deadline do not matter.
-/

namespace TrailSat

open Search

namespace Search

/-- The branches are what has been assigned on top of a state. -/
structure OnTrail (F : Formula) (firstPhase : Bool) (s t : State) (branches : List Branch) :
    Prop where
  /-- The variables of the branches come last on the trail, that of the oldest branch first. -/
  order_eq : t.order = s.order ++ (branches.map Branch.var).reverse
  /-- The flag of a branch tells which value its variable has. -/
  value_eq : ∀ b ∈ branches,
    t.value F b.var = .ok (some (if b.flipped then !firstPhase else firstPhase))

variable {F : Formula} {settings : Settings} {base : Assignment} {p : Position State}

theorem onTrail_along {firstPhase : Bool} {branches : List Branch}
    (hproper : Assignment.Proper F (taken firstPhase branches ++ base)) :
    OnTrail F firstPhase (State.along F base)
      (State.along F (taken firstPhase branches ++ base)) branches := by
  constructor
  case order_eq => simp [State.order, State.along, taken, Function.comp_def]
  case value_eq =>
    intro b hb
    rw [State.value_along_eq_some hproper]
    have hmem : (b.var, if b.flipped then !firstPhase else firstPhase) ∈
        taken firstPhase branches ++ base :=
      List.mem_append_left _ (List.mem_map.2 ⟨b, hb, rfl⟩)
    exact hproper.value?_of_mem hmem

/-- What is safe at a position of a search that began at a state. -/
structure Safe (F : Formula) (settings : Settings) (s : State) (p : Position State) : Prop where
  onTrail : OnTrail F settings.firstPhase s p.state p.branches
  /-- Branches can be taken back down to any level. -/
  unwinds : ∀ keep, (unwind F keep p.state p.branches).failure = none ∧
    OnTrail F settings.firstPhase s (unwind F keep p.state p.branches).state
      (unwind F keep p.state p.branches).branches
  /-- The flipped branches can be closed. -/
  closes : (closeFlipped F p.state p.branches).failure = none ∧
    OnTrail F settings.firstPhase s (closeFlipped F p.state p.branches).state
      (closeFlipped F p.state p.branches).branches
  /-- Then the newest branch that is left can be flipped, if there is one. -/
  backtracks : ∃ q answer, backtrack F settings p = (q, .ok answer) ∧
    OnTrail F settings.firstPhase s q.state q.branches
  /-- Where neither a conflict nor a solution is met, some variable is free and can be assigned. -/
  decides : p.state.hasConflict = false → p.state.isSolved = false →
    ∃ v t, p.state.firstFree? = some v ∧ p.state.assign F v settings.firstPhase = .ok t
  not_failed : ∀ q e, step F settings p ≠ (q, .failed e)

theorem backtracks_of_mirrors (hp : Mirrors F settings.firstPhase base p) :
    ∃ q answer, backtrack F settings p = (q, .ok answer) ∧
      OnTrail F settings.firstPhase (State.along F base) q.state q.branches := by
  cases hbranches : p.branches.dropWhile Branch.flipped with
  | nil =>
      have hbase : Assignment.Proper F (taken settings.firstPhase [] ++ base) := by
        have hdrop := proper_of_suffix (List.dropWhile_suffix Branch.flipped) hp.proper
        rwa [hbranches] at hdrop
      exact ⟨_, false, backtrack_of_closed hp hbranches, onTrail_along hbase⟩
  | cons b rest =>
      obtain ⟨hback, hflipped⟩ := backtrack_of_open hp hbranches
      exact ⟨_, true, hback, onTrail_along hflipped.proper⟩

theorem decides_of_mirrors {firstPhase : Bool} (hp : Mirrors F firstPhase base p)
    (value : Bool) (hconflict : p.state.hasConflict = false) (hsolved : p.state.isSolved = false) :
    ∃ v t, p.state.firstFree? = some v ∧ p.state.assign F v value = .ok t := by
  have hproper := hp.proper
  rw [hp.state_eq] at hconflict hsolved ⊢
  generalize taken firstPhase p.branches ++ base = a at hproper hconflict hsolved ⊢
  rw [State.hasConflict_along hproper] at hconflict
  rw [State.isSolved_along] at hsolved
  rw [State.firstFree?_along]
  cases hfree : a.firstFree? F with
  | none =>
      -- every clause would be satisfied or falsified
      have hall := Assignment.satisfies_of_not_free hfree (by simp [hconflict])
      rw [hsolved] at hall
      cases hall
  | some v =>
      obtain ⟨⟨hlow, hhigh⟩, hvalue⟩ := Assignment.firstFree?_eq_some hfree
      exact ⟨v, _, rfl, State.assign_along hlow hhigh hvalue value⟩

theorem safe_of_mirrors (hp : Mirrors F settings.firstPhase base p) :
    Safe F settings (State.along F base) p := by
  constructor
  case onTrail =>
    rw [hp.state_eq]
    exact onTrail_along hp.proper
  case unwinds =>
    intro keep
    rw [hp.state_eq, unwind_along keep hp.proper]
    exact ⟨rfl, onTrail_along (proper_of_suffix (List.drop_suffix ..) hp.proper)⟩
  case closes =>
    rw [hp.state_eq, closeFlipped_along hp.proper]
    exact ⟨rfl, onTrail_along (proper_of_suffix (List.dropWhile_suffix _) hp.proper)⟩
  case backtracks => exact backtracks_of_mirrors hp
  case decides => exact decides_of_mirrors hp settings.firstPhase
  case not_failed => exact not_failed_of_mirrors hp

end Search

namespace Solver

/-- **A search never fails.**  From every reachable state it comes to a verdict, and at all its
positions the branches are what has been assigned on top of that state, whatever is done with
them next. -/
theorem never_fails {F : Formula} {s : State} (hs : State.Reachable F s) (settings : Settings)
    (solver : Solver) :
    (∃ verdict, (solver.solve F settings s).result = .ok verdict) ∧
      ∀ p ∈ positions F settings (solver.begin.start s), Safe F settings s p := by
  obtain ⟨a, ha, rfl⟩ := State.reachable_iff_along.1 hs
  have hstart : Mirrors F settings.firstPhase a (solver.begin.start (State.along F a)) := ⟨rfl, ha⟩
  constructor
  · obtain ⟨q, verdict, hrun⟩ := exists_run_eq_ok hstart
    exact ⟨verdict, result_of_run hrun⟩
  · intro p hp
    exact safe_of_mirrors (mirrors_of_mem_positions hstart hp)

/-- The third variable of the knot is false.  After the first conflict the branch of the second
variable is flipped and the one of the first variable is not. -/
theorem never_fails_of_knot :
    let s := State.along Formula.knot [(3, false)]
    State.Reachable Formula.knot s ∧
      ∃ p ∈ positions Formula.knot {} (start (begin {}) s),
        p.branches = [⟨2, true⟩, ⟨1, false⟩] ∧ p.state.order = [3, 1, 2] ∧
          Safe Formula.knot {} s p := by
  intro s
  have hs : State.Reachable Formula.knot s := State.reachable_along ⟨by decide, rfl, trivial⟩
  have hbranches : (positions Formula.knot {} (start (begin {}) s))[3]?.map Position.branches =
      some [⟨2, true⟩, ⟨1, false⟩] := by
    decide +kernel
  obtain ⟨p, hp, hflipped⟩ := Option.map_eq_some_iff.1 hbranches
  have hsafe := (never_fails hs {} {}).2 p (List.mem_of_getElem? hp)
  refine ⟨hs, p, List.mem_of_getElem? hp, hflipped, ?_, hsafe⟩
  rw [hsafe.onTrail.order_eq, hflipped]
  rfl

end Solver

end TrailSat
