import TrailSat.Proofs.Search.Simulation
import TrailSat.Proofs.Search.Steps

/-!
# The positions of a search

`run` tells how a search ends.  What holds all along, and what happened first, is said of the list
`positions` of all positions from which the search makes a step: the first one is where the search
begins, each one leads to the next by a step that goes on, and from the last one the search is ended
by a step that does not (`exists_getLast?`).

A search that begins at a position which mirrors its branches mirrors them at all positions, and so
it comes to a verdict.
-/

namespace TrailSat.Search

/-- The positions from which a search makes a step, the first one first. -/
def positions {σ : Type} [Board σ] (F : Formula) (settings : Settings) (p : Position σ) :
    List (Position σ) :=
  match h : step F settings p with
  | (q, .running) =>
    have := workLeft_step_lt h
    p :: positions F settings q
  | _ => [p]
termination_by workLeft p

variable {F : Formula} {settings : Settings} {base : Assignment} {p q : Position State}

theorem positions_of_running (h : step F settings p = (q, .running)) :
    positions F settings p = p :: positions F settings q := by
  rw [positions]
  split
  · next hrunning =>
    rw [h] at hrunning
    rw [(Prod.mk.inj hrunning).1]
  · next hended => exact absurd h (hended q)

theorem positions_of_ended (h : ∀ q, step F settings p ≠ (q, .running)) :
    positions F settings p = [p] := by
  rw [positions]
  split
  · next hrunning => exact absurd hrunning (h _)
  · rfl

theorem run_of_running (h : step F settings p = (q, .running)) :
    run F settings p = run F settings q := by
  rw [run_eq, h]

/-! ## What holds at every position -/

/-- What the running steps keep holds at all positions. -/
theorem keeps_of_mem_positions {Keeps : Position State → Prop}
    (hstep : ∀ p q, Keeps p → step F settings p = (q, .running) → Keeps q) (hp : Keeps p) :
    ∀ q ∈ positions F settings p, Keeps q := by
  fun_induction positions F settings p with
  | case1 p q hrunning hless ih =>
      intro r hr
      rcases List.mem_cons.1 hr with rfl | hr
      · exact hp
      · exact ih (hstep p q hp hrunning) r hr
  | case2 p hended =>
      intro r hr
      rw [List.mem_singleton.1 hr]
      exact hp

/-- The last position is the one from which the search is ended. -/
theorem exists_getLast? (F : Formula) (settings : Settings) (p : Position State) :
    ∃ last, (positions F settings p).getLast? = some last ∧
      ((∃ q verdict, step F settings last = (q, .finished verdict) ∧
          run F settings p = (q, .ok verdict)) ∨
        ∃ q e, step F settings last = (q, .failed e) ∧ run F settings p = (q, .error e)) := by
  fun_induction run F settings p with
  | case1 p q hrunning hless ih =>
      obtain ⟨last, hlast, hend⟩ := ih
      -- the last position of the rest is the last of all
      refine ⟨last, ?_, hend⟩
      rw [positions_of_running hrunning, List.getLast?_cons, hlast]
      rfl
  | case2 p q verdict hfinished =>
      have hended : ∀ r, step F settings p ≠ (r, .running) := by simp [hfinished]
      exact ⟨p, by rw [positions_of_ended hended]; rfl, .inl ⟨q, verdict, hfinished, rfl⟩⟩
  | case3 p q e hfailed =>
      have hended : ∀ r, step F settings p ≠ (r, .running) := by simp [hfailed]
      exact ⟨p, by rw [positions_of_ended hended]; rfl, .inr ⟨q, e, hfailed, rfl⟩⟩

/-- What the running steps keep holds before the step that ends the search. -/
theorem exists_last {Keeps : Position State → Prop}
    (hstep : ∀ p q, Keeps p → step F settings p = (q, .running) → Keeps q) (hp : Keeps p) :
    ∃ last, Keeps last ∧
      ((∃ q verdict, step F settings last = (q, .finished verdict) ∧
          run F settings p = (q, .ok verdict)) ∨
        ∃ q e, step F settings last = (q, .failed e) ∧ run F settings p = (q, .error e)) := by
  obtain ⟨last, hlast, hend⟩ := exists_getLast? F settings p
  exact ⟨last, keeps_of_mem_positions hstep hp last (List.mem_of_getLast? hlast), hend⟩

theorem mirrors_of_step (hp : Mirrors F settings.firstPhase base p)
    (hstep : step F settings p = (q, .running)) : Mirrors F settings.firstPhase base q := by
  have hstepped := stepped_of_mirrors hp
  rw [hstep] at hstepped
  cases hstepped with
  | flip closed v rest hconflict hbranches hclosed hnext => exact hnext
  | decide v hconflict hsolved hbudget hfree hnext => exact hnext

theorem not_failed_of_mirrors (hp : Mirrors F settings.firstPhase base p)
    (q : Position State) (e : AssignError) : step F settings p ≠ (q, .failed e) := by
  intro hstep
  have hstepped := stepped_of_mirrors hp
  rw [hstep] at hstepped
  cases hstepped

/-- A search that mirrors its branches does so at all positions. -/
theorem mirrors_of_mem_positions (hp : Mirrors F settings.firstPhase base p)
    (hq : q ∈ positions F settings p) : Mirrors F settings.firstPhase base q :=
  keeps_of_mem_positions (fun _ _ => mirrors_of_step) hp q hq

/-- Such a search comes to a verdict. -/
theorem exists_run_eq_ok (hp : Mirrors F settings.firstPhase base p) :
    ∃ q verdict, run F settings p = (q, .ok verdict) := by
  obtain ⟨last, hlast, ⟨q, verdict, -, hrun⟩ | ⟨q, e, hfailed, -⟩⟩ :=
    exists_last (fun _ _ => mirrors_of_step) hp
  · exact ⟨q, verdict, hrun⟩
  · exact absurd hfailed (not_failed_of_mirrors hlast q e)

end TrailSat.Search
