import TrailSat.Proofs.Search.Positions
import TrailSat.Proofs.Solver.Verdict

/-!
# A budget of conflicts only truncates a search

A budget is looked at where a decision is due, and nowhere else.  So a search under a budget goes
through the positions of the search without one, up to the first at which a decision is due but the
conflicts are used up (`Position.isSpent`).  There it gives up, with the counters and the events of
that position; if there is no such position, the two searches are the same.

`truncates` says this, and what follows for two budgets.  Under the looser one the search goes on
from where it gives up under the other, so it records the same events first, and a verdict that is
not an early stop is not changed by it.

Positions are compared by `find?`: below, `run_of_never_spent` and `run_of_first_spent` are for any
looser budget, among them none at all and the budget itself.
-/

namespace TrailSat

open Search

namespace Search

/-- The settings with another budget of conflicts. -/
def Settings.withBudget (settings : Settings) (budget : Option Nat) : Settings :=
  { settings with conflictBudget := budget }

/-- Whether a decision is due when as many conflicts have been met as a budget allows. -/
def Position.isSpent (budget : Nat) (p : Position State) : Bool :=
  !p.state.hasConflict && !p.state.isSolved && decide (budget ≤ p.counters.conflicts)

variable {F : Formula} {settings : Settings} {base : Assignment} {p q : Position State}
variable {budget : Nat} {looser : Option Nat}

/-! ## One step -/

theorem step_of_queries (F : Formula) (settings : Settings) (p : Position State) :
    step F settings p =
      if p.state.hasConflict = true then resolve F settings p
      else if p.state.isSolved = true then (p, .finished .sat)
      else proceed F settings p := by
  have hconflict : Board.hasConflict F p.state = .ok p.state.hasConflict := rfl
  have hsolved : Board.isSolved p.state = .ok p.state.isSolved := rfl
  rw [step, hconflict, hsolved]
  cases p.state.hasConflict with
  | true => rfl
  | false => cases p.state.isSolved <;> rfl

theorem withinBudget_of_lt (hle : ∀ b ∈ looser, budget ≤ b) {counters : Counters}
    (hlt : counters.conflicts < budget) :
    withinBudget (settings.withBudget looser) counters =
      withinBudget (settings.withBudget none) counters := by
  cases looser with
  | none => rfl
  | some b =>
      have hb : budget ≤ b := hle b rfl
      have hnot : ¬b ≤ counters.conflicts := by omega
      simp [withinBudget, Settings.withBudget, hnot]

/-- Only a position where the budget is spent can tell whether there is a looser one. -/
theorem step_of_not_spent (hle : ∀ b ∈ looser, budget ≤ b) (h : p.isSpent budget = false) :
    step F (settings.withBudget looser) p = step F (settings.withBudget none) p := by
  rw [step_of_queries, step_of_queries]
  by_cases hconflict : p.state.hasConflict = true
  · rw [if_pos hconflict, if_pos hconflict]
    rfl
  · by_cases hsolved : p.state.isSolved = true
    · simp only [if_neg hconflict, if_pos hsolved]
    · have hlt : p.counters.conflicts < budget := by
        simpa [Position.isSpent, hconflict, hsolved] using h
      simp only [if_neg hconflict, if_neg hsolved, proceed, withinBudget_of_lt hle hlt]
      rfl

theorem step_of_spent (hp : Mirrors F settings.firstPhase base p)
    (h : p.isSpent budget = true) :
    step F (settings.withBudget (some budget)) p =
      ({ p with state := State.along F base, branches := [] }, .finished .undecided) := by
  obtain ⟨⟨hconflict, hsolved⟩, hused⟩ :
      (p.state.hasConflict = false ∧ p.state.isSolved = false) ∧
        budget ≤ p.counters.conflicts := by
    simpa [Position.isSpent] using h
  have hstop : withinBudget (settings.withBudget (some budget)) p.counters = false := by
    simp [withinBudget, Settings.withBudget, hused]
  rw [step_of_queries, if_neg (by simp [hconflict]), if_neg (by simp [hsolved])]
  exact proceed_of_stopped hp hstop

/-! ## The whole search -/

/-- If the budget is never spent, no looser one makes a difference. -/
theorem run_of_never_spent (hle : ∀ b ∈ looser, budget ≤ b)
    (h : (positions F (settings.withBudget none) p).find? (Position.isSpent budget) = none) :
    run F (settings.withBudget looser) p = run F (settings.withBudget none) p := by
  fun_induction positions F (settings.withBudget none) p with
  | case1 p q hrunning hless ih =>
      rw [List.find?_cons] at h
      split at h
      · cases h
      · next hspent =>
        have hstep : step F (settings.withBudget looser) p = (q, .running) :=
          (step_of_not_spent hle hspent).trans hrunning
        rw [run_of_running hrunning, run_of_running hstep, ih h]
  | case2 p hended =>
      have hspent : p.isSpent budget = false := by simpa using List.find?_eq_none.1 h
      rw [run_eq, run_eq, step_of_not_spent hle hspent]
      split
      · next hrunning => exact absurd hrunning (hended _)
      · rfl
      · rfl

/-- Under a looser budget a search gets to the first position at which the budget is spent, and goes
on from there. -/
theorem run_of_first_spent (hle : ∀ b ∈ looser, budget ≤ b)
    (h : (positions F (settings.withBudget none) p).find? (Position.isSpent budget) = some q) :
    run F (settings.withBudget looser) p = run F (settings.withBudget looser) q := by
  fun_induction positions F (settings.withBudget none) p with
  | case1 p r hrunning hless ih =>
      rw [List.find?_cons] at h
      split at h
      · rw [Option.some.inj h]
      · next hspent =>
        have hstep : step F (settings.withBudget looser) p = (r, .running) :=
          (step_of_not_spent hle hspent).trans hrunning
        rw [run_of_running hstep, ih h]
  | case2 p hended =>
      rw [List.mem_singleton.1 (List.mem_of_find?_eq_some h)]

/-! ## Events -/

theorem suffix_noted (settings : Settings) (more events : List Trace.Event) :
    events <:+ noted settings more events := by
  unfold noted
  split
  · exact List.suffix_append ..
  · exact List.suffix_refl _

/-- A step leaves the events that have been recorded. -/
theorem events_suffix_of_step {status : Status} (hp : Mirrors F settings.firstPhase base p)
    (hstep : step F settings p = (q, status)) : p.events <:+ q.events := by
  have hstepped := stepped_of_mirrors hp
  rw [hstep] at hstepped
  cases hstepped with
  | flip closed v rest hconflict hbranches hclosed hnext =>
      exact (suffix_noted settings _ _).trans (suffix_noted settings _ _)
  | exhausted hconflict hclosed => exact suffix_noted settings _ _
  | solved hconflict hsolved => exact List.suffix_refl _
  | stopped hconflict hsolved hbudget => exact List.suffix_refl _
  | decide v hconflict hsolved hbudget hfree hnext => exact suffix_noted settings _ _

theorem events_suffix_of_run (hp : Mirrors F settings.firstPhase base p) :
    p.events <:+ (run F settings p).1.events := by
  have hkeeps : ∀ q r, Mirrors F settings.firstPhase base q ∧ p.events <:+ q.events →
      step F settings q = (r, .running) →
      Mirrors F settings.firstPhase base r ∧ p.events <:+ r.events := by
    rintro q r ⟨hq, hevents⟩ hstep
    exact ⟨mirrors_of_step hq hstep, hevents.trans (events_suffix_of_step hq hstep)⟩
  obtain ⟨last, ⟨hlast, hevents⟩, ⟨q, verdict, hstep, hrun⟩ | ⟨q, e, hstep, hrun⟩⟩ :=
    exists_last hkeeps ⟨hp, List.suffix_refl _⟩
  · rw [hrun]
    exact hevents.trans (events_suffix_of_step hlast hstep)
  · rw [hrun]
    exact hevents.trans (events_suffix_of_step hlast hstep)

end Search

namespace Solver

/-- **A budget of conflicts only truncates a search.**  Compared with the search without one, it
changes nothing unless it is spent somewhere; then the search stops at the first such position, with
what has been counted and recorded there, and gives back the state.  So a looser budget adds to
the events, and leaves every other verdict as it is. -/
theorem truncates {F : Formula} {s : State} (hs : State.Reachable F s) (settings : Settings)
    (solver : Solver) (budget : Nat) :
    let passed := positions F (settings.withBudget none) (solver.begin.start s)
    let unlimited := solver.solve F (settings.withBudget none) s
    let limited := solver.solve F (settings.withBudget (some budget)) s
    (passed.find? (Position.isSpent budget) = none → limited = unlimited) ∧
      (∀ p, passed.find? (Position.isSpent budget) = some p →
        limited.result = .ok .undecided ∧ limited.state = s ∧
          limited.solver =
            { solves := solver.solves + 1
              counters := p.counters
              events := solver.events ++ p.events.reverse
              model := [] }) ∧
      ∀ looser : Option Nat, (∀ b ∈ looser, budget ≤ b) →
        limited.solver.events <+: (solver.solve F (settings.withBudget looser) s).solver.events ∧
          (limited.result ≠ .ok .undecided →
            solver.solve F (settings.withBudget looser) s = limited) := by
  obtain ⟨a, ha, rfl⟩ := State.reachable_iff_along.1 hs
  intro passed unlimited limited
  have hsame : ∀ b ∈ some budget, budget ≤ b := by simp
  have hmirrors : ∀ p ∈ passed, Mirrors F settings.firstPhase a p := by
    intro p hp
    have hstart : Mirrors F (settings.withBudget none).firstPhase a
        (solver.begin.start (State.along F a)) := ⟨rfl, ha⟩
    have hpassed := mirrors_of_mem_positions hstart hp
    exact hpassed
  have hnever (looser : Option Nat) (hle : ∀ b ∈ looser, budget ≤ b)
      (hnone : passed.find? (Position.isSpent budget) = none) :
      solver.solve F (settings.withBudget looser) (State.along F a) = unlimited :=
    congrArg solver.begin.finish (run_of_never_spent hle hnone)
  have hfirst : ∀ p, passed.find? (Position.isSpent budget) = some p →
      limited = solver.begin.finish
        ({ p with state := State.along F a, branches := [] }, .ok .undecided) := by
    intro p hp
    have hrun := run_of_first_spent hsame hp
    have hstep := step_of_spent (hmirrors p (List.mem_of_find?_eq_some hp)) (List.find?_some hp)
    rw [run_eq F _ p, hstep] at hrun
    exact congrArg solver.begin.finish hrun
  refine ⟨hnever _ hsame, fun p hp => ?_, fun looser hle => ?_⟩
  · rw [hfirst p hp]
    exact ⟨rfl, rfl, rfl⟩
  · cases hfind : passed.find? (Position.isSpent budget) with
    | none =>
        have hlimited : limited = unlimited := hnever _ hsame hfind
        rw [hnever looser hle hfind, hlimited]
        exact ⟨List.prefix_refl _, fun _ => rfl⟩
    | some p =>
        -- under the looser budget the search goes on from `p`
        have hlater : solver.solve F (settings.withBudget looser) (State.along F a) =
            solver.begin.finish (run F (settings.withBudget looser) p) :=
          congrArg solver.begin.finish (run_of_first_spent hle hfind)
        have hp : Mirrors F (settings.withBudget looser).firstPhase a p :=
          hmirrors p (List.mem_of_find?_eq_some hfind)
        rw [hfirst p hfind, hlater]
        refine ⟨?_, fun hdecided => absurd rfl hdecided⟩
        rw [events_finish, events_finish]
        exact (List.prefix_append_right_inj _).2 (List.reverse_prefix.2 (events_suffix_of_run hp))

/-- The third variable of the knot is false.  One conflict is spent after the second one has been
met, in front of the third decision; three are not met before a solution is found. -/
theorem truncates_of_knot :
    let settings : Settings := {}
    let s := State.along Formula.knot [(3, false)]
    let limited := solve Formula.knot (settings.withBudget (some 1)) s {}
    let looser := solve Formula.knot (settings.withBudget (some 3)) s {}
    State.Reachable Formula.knot s ∧ limited.result = .ok .undecided ∧
      limited.solver.counters = ⟨2, 2, 2, 2⟩ ∧
      limited.solver.events <+: looser.solver.events ∧ looser.result = .ok .sat ∧
      looser = solve Formula.knot (settings.withBudget none) s {} := by
  intro settings s limited looser
  have hs : State.Reachable Formula.knot s := State.reachable_along ⟨by decide, rfl, trivial⟩
  have hmet : ((positions Formula.knot (settings.withBudget none) (start (begin {}) s)).find?
      (Position.isSpent 1)).map Position.counters = some ⟨2, 2, 2, 2⟩ := by
    decide +kernel
  have hnever : ((positions Formula.knot (settings.withBudget none) (start (begin {}) s)).find?
      (Position.isSpent 3)) = none := by
    decide +kernel
  obtain ⟨p, hp, hcounters⟩ := Option.map_eq_some_iff.1 hmet
  obtain ⟨-, hspent, hlooser⟩ := truncates hs settings {} 1
  obtain ⟨hresult, -, hsolver⟩ := hspent p hp
  obtain ⟨hevents, -⟩ := hlooser (some 3) (by decide)
  obtain ⟨hsame, -, -⟩ := truncates hs settings {} 3
  refine ⟨hs, hresult, ?_, hevents, result_of_toOption (by decide +kernel), hsame hnever⟩
  rw [hsolver, ← hcounters]

end Solver

end TrailSat
