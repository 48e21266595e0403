import TrailSat.Proofs.Solver.Restoration
import TrailSat.Proofs.State.Truth

/-!
# Searching again

A solver may be asked again after a search, and then begins where the former search has left the
state and its counters.

* After a solution it begins at the solution.  The first step of a search looks for a conflict and
  for a solution before it looks at the budgets, so the search ends there, whatever the settings are
  (`solve_of_satisfied`).
* After a search that has found that there is no solution it begins at the former state.  Without
  limits it has to do then what `explore` does from there, and that depends neither on the counters
  nor on the events so far (`solve_of_unsatisfiable`).

`repeats` puts the two together.
-/

namespace TrailSat.Solver

open Search

variable {F : Formula} {a : Assignment}

/-! ## After a solution -/

/-- A search that succeeds keeps the values that it has found. -/
theorem model_of_sat {s : State} {settings : Settings} {solver : Solver}
    (hsat : (solver.solve F settings s).result = .ok .sat) :
    (solver.solve F settings s).solver.model = (solver.solve F settings s).state.values := by
  rw [solve, finish] at hsat ⊢
  simp only at hsat ⊢
  rw [hsat]
  rfl

theorem run_of_satisfied (ha : a.Proper F) (hsatisfies : F.clauses.all a.satisfies = true)
    (settings : Settings) (counters : Counters) :
    run F settings (Position.start (State.along F a) counters) =
      (Position.start (State.along F a) counters, .ok .sat) := by
  have hmirrors : Mirrors F settings.firstPhase a (Position.start (State.along F a) counters) :=
    ⟨rfl, ha⟩
  -- the step looks for a conflict first, and a satisfied clause is not falsified
  have hconflict : ¬F.clauses.any a.falsifies = true := by
    intro hconflict
    have hunsolved := State.not_solved_of_conflict hconflict
    rw [hsatisfies] at hunsolved
    cases hunsolved
  have hstep : step F settings (Position.start (State.along F a) counters) =
      (Position.start (State.along F a) counters, .finished .sat) := by
    rw [step_eq hmirrors]
    exact (if_neg hconflict).trans (if_pos hsatisfies)
  rw [run_eq, hstep]

/-- At a solution there is nothing to do. -/
theorem solve_of_satisfied (ha : a.Proper F) (hsatisfies : F.clauses.all a.satisfies = true)
    (settings : Settings) (solver : Solver) :
    solver.solve F settings (State.along F a) =
      { solver := { solver with
          solves := solver.solves + 1
          model := (State.along F a).values }
        state := State.along F a
        result := .ok .sat } := by
  have hrun : run F settings (solver.begin.start (State.along F a)) =
      (solver.begin.start (State.along F a), .ok .sat) :=
    run_of_satisfied ha hsatisfies settings solver.counters
  rw [solve, hrun]
  simp [finish, absorb, conclude, begin, start, Position.start, Board.entries]

/-! ## After a search in vain -/

/-- Without limits a search in vain does what `explore` does and gives the state back. -/
theorem solve_of_unsatisfiable (ha : a.Proper F) {settings : Settings}
    (hunlimited : settings.Unlimited)
    (hnone : (explore F settings.firstPhase 0 a).found = none) (solver : Solver) :
    let r := explore F settings.firstPhase 0 a
    solver.solve F settings (State.along F a) =
      { solver :=
          { solves := solver.solves + 1
            counters := solver.counters.plus r.counters
            events := solver.events ++ if settings.recordTrace then r.events else []
            model := [] }
        state := State.along F a
        result := .ok .unsat } := by
  intro r
  cases follows_start ha settings solver.begin with
  | stopped counters events hstop hrun =>
      rw [hunlimited.withinBudget] at hstop
      cases hstop
  -- `explore` finds nothing
  | found b hfound hproper branches htaken hrun =>
      rw [hnone] at hfound
      cases hfound
  | exhausted hfound hrun =>
      have hend : run F settings (solver.begin.start (State.along F a)) =
          ((solver.begin.start (State.along F a)).more settings r, .ok .unsat) :=
        hrun.trans (resume_of_nil rfl)
      rw [solve, hend, finish, absorb_more]
      rfl

/-! ## Both together -/

/-- **Searching again comes to the same.**  A solution is found again at once, under any settings,
and nothing changes but the number of searches.  If a search without limits has found that there is
no solution, another one records the same events and counts the same amounts once more. -/
theorem repeats {s : State} (hs : State.Reachable F s) (settings : Settings) (solver : Solver) :
    let first := solver.solve F settings s
    (first.result = .ok .sat → ∀ again : Settings,
      first.solver.solve F again first.state =
        { first with solver := { first.solver with solves := first.solver.solves + 1 } }) ∧
      (settings.Unlimited → first.result = .ok .unsat → ∃ done events,
        first.solver.counters = solver.counters.plus done ∧
        first.solver.events = solver.events ++ events ∧
        first.solver.solve F settings first.state =
          { first with
            solver := { first.solver with
              solves := first.solver.solves + 1
              counters := first.solver.counters.plus done
              events := first.solver.events ++ events } } ∧
        (first.solver.counters.plus done).maxDepth = first.solver.counters.maxDepth) := by
  obtain ⟨a, ha, rfl⟩ := State.reachable_iff_along.1 hs
  intro first
  have hended := ended_along ha settings solver
  -- after a solution the state is at it; after a search in vain it is the former state
  refine ⟨fun hsat again => ?_, fun hunlimited hunsat => ?_⟩
  · have hmodel : first.solver.model = first.state.values := model_of_sat hsat
    obtain ⟨later, hproper, hfound, hstate⟩ := hended.found_of_sat hsat
    have hagain := solve_of_satisfied hproper (satisfies_of_explore hfound) again first.solver
    rw [← hstate] at hagain
    rw [hagain, ← hmodel, ← hsat]
  · obtain ⟨hfound, hstate, hmodel⟩ := hended.exhausted_of_unsat hunsat
    have hfirst : first = _ := solve_of_unsatisfiable ha hunlimited hfound solver
    have hagain := solve_of_unsatisfiable ha hunlimited hfound first.solver
    have hcounters : first.solver.counters = solver.counters.plus _ :=
      congrArg (fun outcome => outcome.solver.counters) hfirst
    have hevents : first.solver.events = solver.events ++ _ :=
      congrArg (fun outcome => outcome.solver.events) hfirst
    refine ⟨_, _, hcounters, hevents, ?_, ?_⟩
    · rw [← hstate] at hagain
      rw [hagain, ← hmodel, ← hunsat]
    · rw [hcounters]
      simp [Counters.plus]

/-- The third variable of the knot is false.  A solution is found, and found again though no
conflicts are allowed any more; with the first variable true there is none, and the one decision and
its flip are recorded twice. -/
theorem repeats_of_knot :
    let s := State.along Formula.knot [(3, false)]
    let stuck := State.along Formula.knot [(3, false), (1, true)]
    let settings : Settings := {}
    let again : Settings := { conflictBudget := some 0, firstPhase := false }
    let found := solve Formula.knot settings s {}
    let failed := solve Formula.knot settings stuck {}
    (State.Reachable Formula.knot s ∧ found.result = .ok .sat ∧
        found.solver.counters = ⟨3, 3, 3, 2⟩ ∧
        found.solver.solve Formula.knot again found.state =
          { found with solver := { found.solver with solves := found.solver.solves + 1 } }) ∧
      State.Reachable Formula.knot stuck ∧ settings.Unlimited ∧ failed.result = .ok .unsat ∧
        failed.solver.events = [⟨.decision, 2, 1⟩, ⟨.flip, -2, 1⟩] ∧
        (failed.solver.solve Formula.knot settings failed.state).solver.events =
          [⟨.decision, 2, 1⟩, ⟨.flip, -2, 1⟩, ⟨.decision, 2, 1⟩, ⟨.flip, -2, 1⟩] := by
  intro s stuck settings again found failed
  have hs : State.Reachable Formula.knot s := State.reachable_along ⟨by decide, rfl, trivial⟩
  have hstuck : State.Reachable Formula.knot stuck :=
    State.reachable_along ⟨by decide, rfl, by decide, rfl, trivial⟩
  have hunlimited : settings.Unlimited := ⟨rfl, fun _ => rfl⟩
  have hsat : found.result = .ok .sat := result_of_toOption (by decide +kernel)
  have hunsat : failed.result = .ok .unsat := result_of_toOption (by decide +kernel)
  have hrecorded : failed.solver.events = [⟨.decision, 2, 1⟩, ⟨.flip, -2, 1⟩] := by decide +kernel
  obtain ⟨hfound, -⟩ := repeats hs settings {}
  obtain ⟨-, hfailed⟩ := repeats hstuck settings {}
  obtain ⟨done, events, -, hevents, hagain, -⟩ := hfailed hunlimited hunsat
  have hadded : events = [⟨.decision, 2, 1⟩, ⟨.flip, -2, 1⟩] := hevents.symm.trans hrecorded
  refine ⟨⟨hs, hsat, by decide +kernel, hfound hsat again⟩, hstuck, hunlimited, hunsat, hrecorded,
    ?_⟩
  rw [hagain]
  change failed.solver.events ++ events = _
  rw [hrecorded, hadded]
  rfl

end TrailSat.Solver
