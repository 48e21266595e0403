import TrailSat.Proofs.Solver.Verdict
import TrailSat.Result

/-!
# Models as certificates

The model of a solver holds the values that its search found, and some variables may have none.
When it is written, such variables count as false, so that there is a literal for every variable
(`IsModel.natAbs_eq`).  This breaks no clause: the search ended because every clause had a true
literal, and this literal is among those written (`isModel_of_satisfies`).

Without limits, a search either ends in such a way, or shows that nothing satisfies the formula
(`Answered`, `answered_of_unlimited`).
-/

namespace TrailSat

open Search

/-! ## Written literals -/

/-- A literal for every variable, in order, such that every clause has one of them. -/
structure IsModel (F : Formula) (literals : List Int) : Prop where
  natAbs_eq : literals.map Int.natAbs = List.range' 1 F.numVars
  meets : ∀ clause ∈ F.clauses, ∃ l ∈ clause, l ∈ literals

theorem modelLiterals_map_range (entries : Nat → Option Bool) (count : Nat) :
    modelLiterals ((List.range count).map fun index => entries (index + 1)) =
      (List.range' 1 count).map fun v => State.literalOf v (entries v == some true) := by
  apply List.ext_getElem
  · simp [modelLiterals]
  · intro index _ _
    simp [modelLiterals, Nat.add_comm]

/-- The literals written for the values along an assignment. -/
theorem modelLiterals_along (F : Formula) (b : Assignment) :
    modelLiterals (State.along F b).values =
      (List.range' 1 F.numVars).map fun v => State.literalOf v (b.value? v == some true) :=
  modelLiterals_map_range b.value? F.numVars

/-- A variable without a value is written negative. -/
theorem neg_mem_modelLiterals {F : Formula} {b : Assignment} {v : Nat}
    (h : (State.along F b).value F v = .ok none) :
    -(v : Int) ∈ modelLiterals (State.along F b).values := by
  by_cases hrange : 1 ≤ v ∧ v ≤ F.numVars
  · rw [State.value_along hrange.1 hrange.2, Except.ok.injEq] at h
    rw [modelLiterals_along]
    refine List.mem_map.2 ⟨v, List.mem_range'_1.2 ⟨hrange.1, by omega⟩, ?_⟩
    rw [h]
    rfl
  · rw [State.value_of_outOfRange hrange] at h
    cases h

/-- The literals written for an assignment that satisfies every clause. -/
theorem isModel_of_satisfies {F : Formula} {b : Assignment} (h : F.clauses.all b.satisfies = true) :
    IsModel F (modelLiterals (State.along F b).values) := by
  rw [modelLiterals_along]
  constructor
  · rw [List.map_map]
    exact List.map_id'' (fun v => Assignment.natAbs_literalOf v _) _
  · intro clause hclause
    obtain ⟨l, hl, hholds⟩ := List.any_eq_true.1 (List.all_eq_true.1 h clause hclause)
    obtain ⟨-, hlow, hhigh⟩ := F.literal_inRange hclause hl
    refine ⟨l, hl, List.mem_map.2 ⟨l.natAbs, List.mem_range'_1.2 ⟨hlow, by omega⟩, ?_⟩⟩
    -- a true literal is that of the value of its variable
    have hvalue := Assignment.holds_iff.1 hholds
    symm
    rw [Assignment.eq_literalOf_iff hlow, hvalue]
    exact ⟨rfl, by simp⟩

/-! ## Answers without limits -/

namespace Solver

/-- How a search without limits can end. -/
inductive Answered (F : Formula) (outcome : Outcome State) : Prop where
  /-- With an assignment under which every clause has a true literal. -/
  | found (b : Assignment) (hsatisfies : F.clauses.all b.satisfies = true)
      (hresult : outcome.result = .ok .sat) (hstate : outcome.state = State.along F b)
      (hmodel : outcome.solver.model = (State.along F b).values)
  /-- Without one, as there is none. -/
  | exhausted (hnone : ¬F.Satisfiable) (hresult : outcome.result = .ok .unsat)

theorem satisfiable_of_satisfies {F : Formula} {b : Assignment}
    (h : F.clauses.all b.satisfies = true) : F.Satisfiable :=
  ⟨b.toValuation, satisfies_of_solved b.extends_toValuation h⟩

theorem answered_of_unlimited (F : Formula) {settings : Settings} (hunlimited : settings.Unlimited)
    (solver : Solver) : Answered F (solver.solve F settings (State.initial F)) := by
  have hsolve : solver.solve F settings (State.initial F) =
      solver.begin.finish (run F settings (solver.begin.start (State.along F []))) := by
    rw [State.along_nil]
    rfl
  have hproper : Assignment.Proper F [] := trivial
  rw [hsolve]
  cases follows_start hproper settings solver.begin with
  | stopped counters events hstop hrun =>
      rw [hunlimited.withinBudget] at hstop
      cases hstop
  | found b hfound _ branches htaken hrun =>
      rw [hrun]
      exact .found b (satisfies_of_explore hfound) rfl rfl rfl
  | exhausted hfound hrun =>
      rw [hrun.trans (resume_of_nil rfl)]
      refine .exhausted ?_ rfl
      rintro ⟨valuation, hsatisfies⟩
      rw [not_satisfies_of_explore hfound nofun] at hsatisfies
      cases hsatisfies

end Solver

end TrailSat
