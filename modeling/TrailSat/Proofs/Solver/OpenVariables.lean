import TrailSat.Proofs.Flat.Reading
import TrailSat.Proofs.Solver.Model
import TrailSat.Proofs.Solver.SameClauses
import TrailSat.State.Sheet

/-!
# Models with open variables

A search ends as soon as every clause has a true literal, and by then any number of variables may
still have no value.  Their entries in the model are open, and whoever uses the model may fill them
in at will: the clauses are satisfied by the entries that are not (`Fixes`), so that every valuation
that agrees with these satisfies the formula (`satisfies_of_fixes`).

The values are handed out in four ways, each with a notation of its own.

```text
                             true    false    no value
an entry of the model           0        1           2
a cell of the state             2        1           0
the literals of the state       v       -v
the written line                v       -v          -v
```

`Reported` says that all four tell the same of every variable, and `reported_of_sat` that this is so
whenever a search succeeds.
-/

namespace TrailSat

open Search

/-- The model gives the variable of a literal the value that makes the literal true. -/
def Fixes (model : List (Option Bool)) (l : Int) : Prop :=
  l ≠ 0 ∧ model[l.natAbs - 1]? = some (some (decide (0 < l)))

/-- A valuation gives the variables that have a value in a model this value. -/
def Valuation.Fills (model : List (Option Bool)) (valuation : Valuation) : Prop :=
  ∀ index value, model[index]? = some (some value) → valuation (index + 1) = value

/-- The codes under which the entries of a model are handed out. -/
def modelCodes (model : List (Option Bool)) : List Value :=
  model.map fun entry => .int (modelEntryCode entry)

/-- A model that tells of every variable what a state tells of it, and enough to satisfy the
clauses. -/
structure Reported (F : Formula) (s : State) (model : List (Option Bool)) : Prop where
  length_eq : model.length = F.numVars
  entry_eq : ∀ v, 1 ≤ v → v ≤ F.numVars →
    ∃ entry, model[v - 1]? = some entry ∧ s.value F v = .ok entry
  /-- The code of an entry and the cell of the variable add up to 2. -/
  code_eq : ∀ v, 1 ≤ v → v ≤ F.numVars → ∃ code cell : Nat,
    (modelCodes model)[v - 1]? = some (.int code) ∧
      (Sheet.ofState s).values[v - 1]? = some (.int cell) ∧ code + cell = 2
  /-- Every clause has a literal that the model makes true. -/
  fixes : ∀ clause ∈ F.clauses, ∃ l ∈ clause, Fixes model l
  /-- The open entries may be filled in at will. -/
  satisfies_of_fills : ∀ valuation : Valuation, valuation.Fills model →
    valuation.satisfies F = true
  /-- The literals of the state stand in the order of their variables. -/
  pairwise_literals : (s.literals.map Int.natAbs).Pairwise (· < ·)
  mem_literals_iff : ∀ l, l ∈ s.literals ↔ Fixes model l
  /-- The line that is written from the codes is read as a single clause with a literal for every
  variable, which is negative if the variable has no value. -/
  line : ∃ written,
    Flat.readClauses (modelLine ((modelCodes model).map modelEntryOfCode)) = .ok [written] ∧
      IsModel F written ∧ (∀ l ∈ s.literals, l ∈ written) ∧
      ∀ v : Nat, s.value F v = .ok none → -(v : Int) ∈ written

/-! ## Codes -/

@[simp] theorem modelEntryOfCode_modelEntryCode (entry : Option Bool) :
    modelEntryOfCode (.int (modelEntryCode entry)) = entry := by
  rcases entry with - | - | - <;> rfl

/-- No entry is lost when a model is handed out by codes. -/
theorem map_modelEntryOfCode_modelCodes (model : List (Option Bool)) :
    (modelCodes model).map modelEntryOfCode = model := by
  rw [modelCodes, List.map_map]
  exact List.map_id'' modelEntryOfCode_modelEntryCode model

theorem modelEntryCode_add_valueCode (entry : Option Bool) :
    modelEntryCode entry + State.valueCode entry = 2 := by
  rcases entry with - | - | - <;> rfl

/-! ## Filling in the open entries -/

section

variable {F : Formula} {model : List (Option Bool)} {l : Int}

theorem holds_of_fixes {valuation : Valuation} (hfills : valuation.Fills model)
    (h : Fixes model l) : valuation.holds l = true := by
  obtain ⟨hl, hentry⟩ := h
  have hvalue := hfills _ _ hentry
  rw [show l.natAbs - 1 + 1 = l.natAbs by omega] at hvalue
  rw [Valuation.holds, hvalue]
  by_cases hsign : 0 < l <;> simp [hsign]

theorem satisfies_of_fixes (h : ∀ clause ∈ F.clauses, ∃ l ∈ clause, Fixes model l)
    {valuation : Valuation} (hfills : valuation.Fills model) : valuation.satisfies F = true := by
  refine List.all_eq_true.2 fun clause hclause => ?_
  obtain ⟨l, hl, hfixes⟩ := h clause hclause
  exact List.any_eq_true.2 ⟨l, hl, holds_of_fixes hfills hfixes⟩

/-! ## The line -/

theorem modelLine_eq_write (model : List (Option Bool)) :
    modelLine model = Flat.write [modelLiterals model] := by
  rw [modelLine, Flat.write, List.map_singleton, String.intercalate_singleton, List.map_append]
  rfl

theorem readClauses_modelLine (hmodel : IsModel F (modelLiterals model)) :
    Flat.readClauses (modelLine model) = .ok [modelLiterals model] := by
  rw [modelLine_eq_write]
  apply Flat.readClauses_write
  intro clause hclause l hl
  rw [List.mem_singleton.1 hclause] at hl
  have hvar : l.natAbs ∈ List.range' 1 F.numVars := by
    rw [← hmodel.natAbs_eq]
    exact List.mem_map_of_mem hl
  rw [List.mem_range'_1] at hvar
  exact ⟨by omega, F.isReadable_of_le (by omega)⟩

/-- A literal that is true under a model is written. -/
theorem mem_modelLiterals_of_fixes (h : Fixes model l) : l ∈ modelLiterals model := by
  obtain ⟨hl, hentry⟩ := h
  refine List.mem_map.2 ⟨(some (decide (0 < l)), l.natAbs - 1), ?_, ?_⟩
  · rwa [List.mem_zipIdx_iff_getElem?]
  · have hvalue : (some (decide (0 < l)) == some true) = decide (0 < l) := by simp
    dsimp only
    rw [hvalue, State.literalOf_place hl]

end

/-! ## Reports -/

theorem fixes_along {F : Formula} {b : Assignment} (h : F.clauses.all b.satisfies = true) :
    ∀ clause ∈ F.clauses, ∃ l ∈ clause, Fixes (State.along F b).values l := by
  intro clause hclause
  obtain ⟨l, hl, hholds⟩ := List.any_eq_true.1 (List.all_eq_true.1 h clause hclause)
  obtain ⟨hne, hlow, hhigh⟩ := F.literal_inRange hclause hl
  refine ⟨l, hl, hne, ?_⟩
  rw [State.getElem?_values_along hlow hhigh, Assignment.holds_iff.1 hholds]

theorem reported_along {F : Formula} {b : Assignment} (h : F.clauses.all b.satisfies = true) :
    Reported F (State.along F b) (State.along F b).values := by
  have hfixes := fixes_along h
  have hentry (v : Nat) (hlow : 1 ≤ v) (hhigh : v ≤ F.numVars) :=
    State.getElem?_values_along (a := b) hlow hhigh
  constructor
  case length_eq => simp [State.along]
  case entry_eq =>
    intro v hlow hhigh
    exact ⟨b.value? v, hentry v hlow hhigh, State.value_along hlow hhigh⟩
  case code_eq =>
    intro v hlow hhigh
    refine ⟨_, _, ?_, ?_, modelEntryCode_add_valueCode (b.value? v)⟩
    · rw [modelCodes, List.getElem?_map, hentry v hlow hhigh, Option.map_some]
    · rw [Sheet.ofState, List.getElem?_map, hentry v hlow hhigh, Option.map_some, Sheet.ofEntry]
  case fixes => exact hfixes
  case satisfies_of_fills => exact fun valuation => satisfies_of_fixes hfixes
  case pairwise_literals => exact State.pairwise_literals _
  case mem_literals_iff => exact fun l => State.mem_literals_iff
  case line =>
    have hmodel := isModel_of_satisfies h
    rw [map_modelEntryOfCode_modelCodes]
    refine ⟨_, readClauses_modelLine hmodel, hmodel, fun l hl => ?_, fun v hfree => ?_⟩
    · exact mem_modelLiterals_of_fixes (State.mem_literals_iff.1 hl)
    · exact neg_mem_modelLiterals hfree

namespace Solver

/-- **A reported model is right however its open entries are filled in**, and all ways of handing it
out tell the same. -/
theorem reported_of_sat {F : Formula} {s : State} (hs : State.Reachable F s) (settings : Settings)
    (solver : Solver) (hsat : (solver.solve F settings s).result = .ok .sat) :
    Reported F (solver.solve F settings s).state (solver.solve F settings s).solver.model := by
  obtain ⟨a, ha, rfl⟩ := State.reachable_iff_along.1 hs
  have hsolve : solver.solve F settings (State.along F a) =
      solver.begin.finish (run F settings (solver.begin.start (State.along F a))) := rfl
  rw [hsolve] at hsat ⊢
  -- a search that is stopped or finds nothing has another verdict
  cases follows_start ha settings solver.begin with
  | stopped counters events hstop hrun =>
      rw [hrun] at hsat
      cases hsat
  | found b hfound hproper branches htaken hrun =>
      rw [hrun]
      exact reported_along (satisfies_of_explore hfound)
  | exhausted hfound hrun =>
      rw [hrun.trans (resume_of_nil rfl)] at hsat
      cases hsat

/-- The third variable of the plait is false.  The last variable is left open, and the other two are
found. -/
theorem reported_of_sat_of_plait :
    let s := State.along Formula.plait [(3, false)]
    let outcome := solve Formula.plait {} s {}
    State.Reachable Formula.plait s ∧ outcome.result = .ok .sat ∧
      Reported Formula.plait outcome.state outcome.solver.model ∧
      outcome.solver.model = [some false, some true, some false, none] ∧
      outcome.state.literals = [-1, 2, -3] ∧
      modelLine outcome.solver.model = "-1 2 -3 -4 0" := by
  intro s outcome
  have hs : State.Reachable Formula.plait s := State.reachable_along ⟨by decide, rfl, trivial⟩
  have hsat : outcome.result = .ok .sat := result_of_toOption (by decide +kernel)
  have hmodel : outcome.solver.model = [some false, some true, some false, none] := by
    decide +kernel
  refine ⟨hs, hsat, reported_of_sat hs {} {} hsat, hmodel, by decide +kernel, ?_⟩
  rw [hmodel]
  decide +kernel

end Solver

end TrailSat
