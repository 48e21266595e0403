import TrailSat.Proofs.Solver.Verdict
import TrailSat.Proofs.State.Layout

/-!
# What a search leaves behind

A search works on the state that it is given and has to clean up after itself.  There are three
ways out of it, with different branches open: a solution, with the branches that led to it; an early
stop, at any depth; and the end of all branches, with a flip that finds nothing left to flip.

`restores_or_extends` says that the last two give back the state that the search was given, every
mark and every frame of it, and that the first one only adds to it (`State.Extends`): what had been
assigned before is below the new assignments, with its values and its frames, and taking these back
leads to the given state again.

Both are read off the assignments.  `Ended` lists the ways in which a search along an assignment
ends, each with the assignment that it ends at.
-/

namespace TrailSat

open Search

namespace State

/-- The request to take back the assignments of some variables, one after the other. -/
def unsetAll (F : Formula) (vars : List Nat) (s : State) : Except AssignError State :=
  vars.foldlM (fun t (v : Nat) => t.unset F (.int v)) s

/-- The assignments of a state, and some more after them. -/
structure Extends (F : Formula) (s t : State) (added : List Nat) : Prop where
  /-- The added variables come last on the trail. -/
  order_eq : t.order = s.order ++ added
  /-- The variables that had a value keep it. -/
  value_eq : ∀ v ∈ s.trail, t.value F v = s.value F v
  /-- The first frames are those of the state. -/
  frames_eq : t.frames.take (s.depth + 1) = s.frames
  /-- Taking back the added variables, the newest first, leads back to the state. -/
  unsetAll_eq : unsetAll F added.reverse t = .ok s

/-! ## Extending an assignment -/

theorem unsetAll_along {F : Formula} {later base : Assignment}
    (hproper : Assignment.Proper F (later ++ base)) :
    unsetAll F (later.map Prod.fst) (along F (later ++ base)) = .ok (along F base) := by
  induction later with
  | nil => rfl
  | cons e rest ih =>
      obtain ⟨⟨hlow, hhigh⟩, hfree, hrest⟩ := hproper
      have hunset : (along F (e :: rest ++ base)).unset F (.int e.1) =
          .ok (along F (rest ++ base)) := by
        rw [unset_eq_unassign (readVar_int hlow hhigh)]
        exact unassign_along hlow hhigh hfree
      rw [unsetAll, List.map_cons, List.foldlM_cons, hunset]
      exact ih hrest

/-- Later assignments put their frames on top. -/
theorem frames_suffix (F : Formula) (later base : Assignment) :
    base.frame F :: base.savedFrames F <:+
      Assignment.frame F (later ++ base) :: Assignment.savedFrames F (later ++ base) := by
  induction later with
  | nil => exact List.suffix_refl _
  | cons e rest ih => exact ih.trans (List.suffix_cons ..)

theorem take_frames_along (F : Formula) (later base : Assignment) :
    (along F (later ++ base)).frames.take ((along F base).depth + 1) = (along F base).frames := by
  -- the newest frame is the head of the saved ones and the last of the frames
  have hprefix : (along F base).frames <+: (along F (later ++ base)).frames :=
    List.reverse_prefix.2 (frames_suffix F later base)
  have hlength : (along F base).frames.length = (along F base).depth + 1 := by
    rw [length_frames_along, depth_along]
  rw [← hlength]
  exact (List.prefix_iff_eq_take.1 hprefix).symm

theorem extends_along {F : Formula} {later base : Assignment}
    (hproper : Assignment.Proper F (later ++ base)) :
    Extends F (along F base) (along F (later ++ base)) (later.map Prod.fst).reverse := by
  constructor
  case order_eq => simp [order, along]
  case value_eq =>
    intro v hv
    obtain ⟨e, he, rfl⟩ := List.mem_map.1 hv
    obtain ⟨hlow, hhigh⟩ := hproper.inRange_of_mem (List.mem_append_right _ he)
    rw [value_along hlow hhigh, value_along hlow hhigh, hproper.value?_append hv]
  case frames_eq => exact take_frames_along F later base
  case unsetAll_eq =>
    rw [List.reverse_reverse]
    exact unsetAll_along hproper

end State

namespace Solver

/-! ## The ends of a search -/

/-- How a search that begins along an assignment can end: it is stopped early, or finds what
`explore` finds, or there is nothing to find. -/
inductive Ended (F : Formula) (firstPhase : Bool) (a : Assignment) (outcome : Outcome State) :
    Prop where
  | stopped (hresult : outcome.result = .ok .undecided)
      (hstate : outcome.state = State.along F a) (hmodel : outcome.solver.model = [])
  | found (later : Assignment) (hproper : Assignment.Proper F (later ++ a))
      (hfound : (explore F firstPhase 0 a).found = some (later ++ a))
      (hresult : outcome.result = .ok .sat)
      (hstate : outcome.state = State.along F (later ++ a))
  | exhausted (hfound : (explore F firstPhase 0 a).found = none)
      (hresult : outcome.result = .ok .unsat)
      (hstate : outcome.state = State.along F a) (hmodel : outcome.solver.model = [])

theorem Ended.found_of_sat {F : Formula} {firstPhase : Bool} {a : Assignment}
    {outcome : Outcome State} (h : Ended F firstPhase a outcome)
    (hsat : outcome.result = .ok .sat) :
    ∃ later, Assignment.Proper F (later ++ a) ∧
      (explore F firstPhase 0 a).found = some (later ++ a) ∧
      outcome.state = State.along F (later ++ a) := by
  cases h with
  | found later hproper hfound hresult hstate => exact ⟨later, hproper, hfound, hstate⟩
  | stopped hresult | exhausted _ hresult =>
      rw [hsat] at hresult
      cases hresult

theorem Ended.exhausted_of_unsat {F : Formula} {firstPhase : Bool} {a : Assignment}
    {outcome : Outcome State} (h : Ended F firstPhase a outcome)
    (hunsat : outcome.result = .ok .unsat) :
    (explore F firstPhase 0 a).found = none ∧ outcome.state = State.along F a ∧
      outcome.solver.model = [] := by
  cases h with
  | exhausted hfound hresult hstate hmodel => exact ⟨hfound, hstate, hmodel⟩
  | stopped hresult | found _ _ _ hresult =>
      rw [hunsat] at hresult
      cases hresult

theorem ended_along {F : Formula} {a : Assignment} (ha : a.Proper F) (settings : Settings)
    (solver : Solver) :
    Ended F settings.firstPhase a (solver.solve F settings (State.along F a)) := by
  have hsolve : solver.solve F settings (State.along F a) =
      solver.begin.finish (run F settings (solver.begin.start (State.along F a))) := rfl
  cases follows_start ha settings solver.begin with
  | stopped counters events hstop hrun =>
      rw [hrun] at hsolve
      rw [hsolve]
      exact .stopped rfl rfl rfl
  | found b hfound hproper branches htaken hrun =>
      rw [hrun] at hsolve
      rw [hsolve]
      -- what has been found is the former assignment with the open branches on top
      subst htaken
      exact .found _ hproper hfound rfl rfl
  | exhausted hfound hrun =>
      -- no branch is open where the search began, so nothing is left to flip
      rw [hrun.trans (resume_of_nil rfl)] at hsolve
      rw [hsolve]
      exact .exhausted hfound rfl rfl rfl

/-- **A search gives back the state or extends it.**  Without a solution everything is as it was
before, and there is no model; with one there are new assignments after the former ones. -/
theorem restores_or_extends {F : Formula} {s : State} (hs : State.Reachable F s)
    (settings : Settings) (solver : Solver) :
    let outcome := solver.solve F settings s
    ∃ verdict, outcome.result = .ok verdict ∧
      (verdict = .unsat ∨ verdict = .undecided →
        outcome.state = s ∧ outcome.solver.model = []) ∧
      (verdict = .sat → ∃ added, State.Extends F s outcome.state added) := by
  intro outcome
  obtain ⟨a, ha, rfl⟩ := State.reachable_iff_along.1 hs
  cases ended_along ha settings solver with
  | stopped hresult hstate hmodel =>
      exact ⟨.undecided, hresult, fun _ => ⟨hstate, hmodel⟩, nofun⟩
  | found later hproper hfound hresult hstate =>
      refine ⟨.sat, hresult, ?_, fun _ => ⟨(later.map Prod.fst).reverse, ?_⟩⟩
      · rintro (h | h) <;> cases h
      · have hextends := State.extends_along hproper
        rw [← hstate] at hextends
        exact hextends
  | exhausted hfound hresult hstate hmodel =>
      exact ⟨.unsat, hresult, fun _ => ⟨hstate, hmodel⟩, nofun⟩

/-- The third variable of the knot is false, and one conflict is allowed.  The search is stopped
after two of them, when the first variable has got its second value and the second one is to be
decided again. -/
theorem restores_or_extends_of_knot :
    let settings : Settings := { conflictBudget := some 1 }
    let s := State.along Formula.knot [(3, false)]
    State.Reachable Formula.knot s ∧
      (solve Formula.knot settings s {}).result = .ok .undecided ∧
      (solve Formula.knot settings s {}).solver.counters = ⟨2, 2, 2, 2⟩ ∧
      (solve Formula.knot settings s {}).state = s := by
  intro settings s
  have hs : State.Reachable Formula.knot s := State.reachable_along ⟨by decide, rfl, trivial⟩
  have hstopped : (solve Formula.knot settings s {}).result = .ok .undecided :=
    result_of_toOption (by decide +kernel)
  obtain ⟨verdict, hresult, hrestores, -⟩ := restores_or_extends hs settings {}
  obtain rfl : verdict = .undecided := Except.ok.inj (hresult.symm.trans hstopped)
  exact ⟨hs, hresult, by decide +kernel, (hrestores (.inr rfl)).1⟩

end Solver

end TrailSat
