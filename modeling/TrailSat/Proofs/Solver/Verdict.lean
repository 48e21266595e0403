import TrailSat.Proofs.Fallible
import TrailSat.Proofs.Search.Simulation
import TrailSat.Proofs.State.Replay
import TrailSat.Search.Budget
import TrailSat.Solver

/-!
# What the answers of a solver mean

A solver may be asked on any reachable state, so some variables may have values that it has to
respect.  It always answers.  If it says that there is a satisfying assignment, some valuation
satisfies the formula and gives those variables their values (`Valuation.Completes`); if it says
that there is none, no valuation does (`exists_verdict`).  Without limits it says one of the two.

More is true without limits: what a solver does is what `Search.explore` does (`solve_eq_explore`).
Both results are read off `Search.follows_explore`, applied to the position at which a search
begins.  There it has no branches, so backtracking ends it.
-/

namespace TrailSat

open Search

/-- A valuation gives the variables that have a value in a state this value. -/
def Valuation.Completes (F : Formula) (s : State) (valuation : Valuation) : Prop :=
  ∀ v value, s.value F v = .ok (some value) → valuation v = value

/-- Some valuation that completes a state makes the formula hold. -/
def State.Completable (F : Formula) (s : State) : Prop :=
  ∃ valuation : Valuation, valuation.Completes F s ∧ valuation.satisfies F = true

theorem Valuation.completes_along {F : Formula} {a : Assignment} (ha : a.Proper F)
    {valuation : Valuation} :
    valuation.Completes F (State.along F a) ↔ valuation.Extends a := by
  simp only [Completes, Extends, State.value_along_eq_some ha]

/-- A valuation that extends an assignment extends what was assigned before. -/
theorem Valuation.extends_of_suffix {F : Formula} {a b : Assignment} (hb : b.Proper F)
    (hsuffix : a <:+ b) {valuation : Valuation} (h : valuation.Extends b) :
    valuation.Extends a := by
  obtain ⟨later, rfl⟩ := hsuffix
  intro v value hvalue
  refine h v value ?_
  rw [hb.value?_append (Assignment.mem_of_value?_eq_some hvalue), hvalue]

namespace Solver

theorem follows_start {F : Formula} {a : Assignment} (ha : a.Proper F) (settings : Settings)
    (solver : Solver) :
    Follows F settings a (solver.start (State.along F a)) (explore F settings.firstPhase 0 a) :=
  follows_explore F settings a 0 a _ ⟨rfl, ha⟩ rfl rfl

/-- A negative budget of conflicts and no budget of seconds leave a search unlimited. -/
theorem unlimited_of_negative {budgets : Budgets} {conflicts : Int} (hnegative : conflicts < 0)
    (hconflicts : budgets.conflicts = .ok (conflictLimit? conflicts))
    (hseconds : budgets.seconds = .ok none) (clock : Nat → Float) :
    (budgets.settings clock).Unlimited := by
  have hlimit : conflictLimit? conflicts = none := by
    rw [conflictLimit?, if_neg (by omega)]
  constructor
  · rw [Budgets.settings, hconflicts, hlimit]
    rfl
  · intro decisions
    rw [Budgets.settings, hseconds]
    rfl

theorem result_of_run {F : Formula} {settings : Settings} {s : State} {solver : Solver}
    {q : Position State} {result : Except AssignError Verdict}
    (hrun : run F settings (solver.begin.start s) = (q, result)) :
    (solver.solve F settings s).result = result := by
  rw [solve, hrun]
  rfl

theorem events_finish (solver : Solver) (ended : Position State × Except AssignError Verdict) :
    (solver.finish ended).solver.events = solver.events ++ ended.1.events.reverse := by
  obtain ⟨q, e | verdict⟩ := ended
  · rfl
  · cases verdict <;> rfl

theorem result_of_toOption {outcome : Outcome State} {verdict : Verdict}
    (h : outcome.result.toOption = some verdict) : outcome.result = .ok verdict :=
  eq_ok_of_toOption h

/-- **A solver's verdict is sound, and without limits complete.**  On every reachable state, under
all settings and whatever the solver has done before, it comes to a verdict. -/
theorem exists_verdict {F : Formula} {s : State} (hs : State.Reachable F s)
    (settings : Settings) (solver : Solver) :
    ∃ verdict, (solver.solve F settings s).result = .ok verdict ∧
      (verdict = .sat → s.Completable F) ∧ (verdict = .unsat → ¬s.Completable F) ∧
      (settings.Unlimited → verdict ≠ .undecided ∧ (verdict = .sat ↔ s.Completable F)) := by
  obtain ⟨a, ha, rfl⟩ := State.reachable_iff_along.1 hs
  simp only [State.Completable, Valuation.completes_along ha]
  cases follows_start ha settings solver.begin with
  | stopped counters events hstop hrun =>
      refine ⟨.undecided, result_of_run hrun, nofun, nofun, fun hunlimited => ?_⟩
      rw [hunlimited.withinBudget] at hstop
      cases hstop
  | found b hfound hproper branches htaken hrun =>
      have hextends : b.toValuation.Extends a :=
        Valuation.extends_of_suffix hproper (suffix_of_explore hfound) b.extends_toValuation
      have hsatisfies : b.toValuation.satisfies F = true :=
        satisfies_of_solved b.extends_toValuation (satisfies_of_explore hfound)
      refine ⟨.sat, result_of_run hrun, fun _ => ⟨_, hextends, hsatisfies⟩, nofun, fun _ => ?_⟩
      exact ⟨nofun, fun _ => ⟨_, hextends, hsatisfies⟩, fun _ => rfl⟩
  | exhausted hfound hrun =>
      -- a valuation that satisfies the formula would have been met by `explore`
      have hnone :
          ¬∃ valuation : Valuation, valuation.Extends a ∧ valuation.satisfies F = true := by
        rintro ⟨valuation, hextends, hsatisfies⟩
        rw [not_satisfies_of_explore hfound hextends] at hsatisfies
        cases hsatisfies
      have hresult := result_of_run (hrun.trans (resume_of_nil rfl))
      refine ⟨.unsat, hresult, nofun, fun _ => hnone, fun _ => ⟨nofun, nofun, fun hsome => ?_⟩⟩
      exact absurd hsome hnone

/-- A clause is falsified at once, so the two assigned variables cannot keep their values. -/
theorem exists_verdict_of_knotted :
    State.Reachable Formula.knot State.knotted ∧ ¬State.knotted.Completable Formula.knot := by
  obtain ⟨verdict, hresult, -, hunsat, -⟩ := exists_verdict State.reachable_knotted {} {}
  refine ⟨State.reachable_knotted, hunsat ?_⟩
  have hrun : run Formula.knot {} (start (begin {}) State.knotted) =
      (⟨State.knotted, [], { conflicts := 1 }, []⟩, .ok .unsat) := by
    rw [run_eq]
    rfl
  rw [result_of_run hrun] at hresult
  exact (Except.ok.inj hresult).symm

/-! ## The search as a recursion -/

/-- What a solver takes over from a search that has done what an exploration did. -/
theorem absorb_more (solver : Solver) (settings : Settings) (s : State) (r : Exploration) :
    solver.absorb ((solver.start s).more settings r) =
      { solver with
        counters := solver.counters.plus r.counters
        events := solver.events ++ if settings.recordTrace then r.events else [] } := by
  by_cases hrecord : settings.recordTrace = true
  · simp [absorb, start, Position.start, Position.more, noted, hrecord]
  · simp [absorb, start, Position.start, Position.more, noted, hrecord]

theorem absorb_of_more {settings : Settings} {r : Exploration} {p q : Position State}
    (hstart : p.counters = {} ∧ p.events = [])
    (hmore : q = { p.more settings r with state := q.state, branches := q.branches }) :
    absorb (begin {}) q =
      { solves := 1
        counters := r.counters
        events := if settings.recordTrace then r.events else [] } := by
  have hnew : absorb (begin {}) q =
      absorb (begin {}) ((start (begin {}) p.state).more settings r) := by
    rw [hmore]
    simp [absorb, start, Position.start, Position.more, begin, hstart]
  rw [hnew, absorb_more]
  simp [begin, Counters.plus]

/-- **An unlimited search does what `explore` does.**  A solver that has not been asked before comes
to the verdict of `explore` on the assignments of the state, with its events, its counters and its
model; and if an assignment is found, the variables are assigned in its order. -/
theorem solve_eq_explore {F : Formula} {s : State} (hs : State.Reachable F s)
    {settings : Settings} (hunlimited : settings.Unlimited) :
    let r := explore F settings.firstPhase 0 s.assignment
    let outcome := solve F settings s {}
    outcome.result = .ok r.verdict ∧
      outcome.solver =
        { solves := 1
          counters := r.counters
          events := if settings.recordTrace then r.events else []
          model := r.model F } ∧
      ∀ b, r.found = some b →
        outcome.state.assignment = b ∧ outcome.state.trail = b.map Prod.fst := by
  obtain ⟨a, ha, rfl⟩ := State.reachable_iff_along.1 hs
  rw [State.assignment_along ha]
  intro r outcome
  cases follows_start ha settings (begin {}) with
  | stopped counters events hstop hrun =>
      rw [hunlimited.withinBudget] at hstop
      cases hstop
  | found b hfound hproper branches htaken hrun =>
      have houtcome : outcome = finish (begin {}) _ := congrArg (finish (begin {})) hrun
      refine ⟨?_, ?_, fun c hc => ?_⟩
      · rw [houtcome, Exploration.verdict, hfound]
        rfl
      · rw [houtcome, finish, absorb_of_more ⟨rfl, rfl⟩ rfl, Exploration.model, hfound]
        rfl
      · obtain rfl := Option.some.inj (hfound.symm.trans hc)
        rw [houtcome]
        exact ⟨State.assignment_along hproper, rfl⟩
  | exhausted hfound hrun =>
      have hend := hrun.trans (resume_of_nil rfl)
      have houtcome : outcome = finish (begin {}) _ := congrArg (finish (begin {})) hend
      refine ⟨?_, ?_, fun c hc => ?_⟩
      · rw [houtcome, Exploration.verdict, hfound]
        rfl
      · rw [houtcome, finish, absorb_of_more ⟨rfl, rfl⟩ rfl, Exploration.model, hfound]
        rfl
      · rw [hfound] at hc
        cases hc

/-- The third variable of the knot is false, and neither conflicts nor time are limited.  The first
variable then turns out to be false too, after both values of the second one have been tried. -/
theorem solve_eq_explore_of_knot :
    let settings := (Budgets.ofGiven (some (-1)) none).settings stillClock
    let s := State.along Formula.knot [(3, false)]
    State.Reachable Formula.knot s ∧ settings.Unlimited ∧
      (solve Formula.knot settings s {}).result = .ok .sat ∧
      (solve Formula.knot settings s {}).solver.counters = ⟨3, 3, 3, 2⟩ ∧
      (solve Formula.knot settings s {}).state.trail = [2, 1, 3] := by
  intro settings s
  have hproper : Assignment.Proper Formula.knot [(3, false)] := ⟨by decide, rfl, trivial⟩
  have hs : State.Reachable Formula.knot s := State.reachable_along hproper
  have hnegative : (-1 : Int) < 0 := by decide
  have hunlimited : settings.Unlimited := unlimited_of_negative hnegative rfl rfl stillClock
  obtain ⟨hresult, hsolver, hfound⟩ := solve_eq_explore hs hunlimited
  rw [State.assignment_along hproper] at hresult hsolver hfound
  have hverdict : (explore Formula.knot true 0 [(3, false)]).verdict = .sat := by
    decide +kernel
  have hcounters : (explore Formula.knot true 0 [(3, false)]).counters = ⟨3, 3, 3, 2⟩ := by
    decide +kernel
  have hmodel : (explore Formula.knot true 0 [(3, false)]).found =
      some [(2, false), (1, false), (3, false)] := by
    decide +kernel
  refine ⟨hs, hunlimited, ?_, ?_, ?_⟩
  · exact hresult.trans (congrArg Except.ok hverdict)
  · exact (congrArg Solver.counters hsolver).trans hcounters
  · exact (hfound _ hmodel).2

end Solver

end TrailSat
