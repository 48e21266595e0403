import TrailSat.Proofs.State.Reachable

/-!
# What the marks and the frame tell about the clauses

Two summaries of one assignment are kept: marks, which are not made any more in a clause that is
satisfied, and the frame of the clauses that are not.  Along an assignment both answer as if every
clause had been evaluated afresh.

* `hasConflict_along`: some row is all falsified just when some clause is falsified.  Marks may be
  missing in a satisfied clause, but such a clause has a satisfying mark or an unset one.
* `isSolved_along`: the frame is empty just when every clause is satisfied.
* `firstFree?_along`: the first free entry is that of the lowest free variable.
* `mem_literals_along`: the literals that are listed as true are those of the assignment, and their
  variables ascend (`pairwise_literals`).
-/

namespace TrailSat

/-! ## Questions with the same answers -/

theorem any_eq_any_of_mem {Item : Type} {p q : Item → Bool} {items : List Item}
    (h : ∀ item ∈ items, p item = q item) : items.any p = items.any q := by
  rw [Bool.eq_iff_iff, List.any_eq_true, List.any_eq_true]
  exact exists_congr fun item => and_congr_right fun hitem => by rw [h item hitem]

theorem all_eq_all_of_mem {Item : Type} {p q : Item → Bool} {items : List Item}
    (h : ∀ item ∈ items, p item = q item) : items.all p = items.all q := by
  rw [Bool.eq_iff_iff, List.all_eq_true, List.all_eq_true]
  exact forall₂_congr fun item hitem => by rw [h item hitem]

namespace Assignment

/-! ## Marks and truth -/

theorem refutes_cons_of_ne {v : Nat} {l : Int} (h : l.natAbs ≠ v) (value : Bool)
    (earlier : Assignment) : refutes ((v, value) :: earlier) l = refutes earlier l := by
  rw [refutes, value?_cons_of_ne h, refutes]

/-- Of the two literals of the last variable, the one that did not become true became false. -/
theorem refutes_cons_self {l : Int} (hl : l ≠ 0) {value : Bool} (earlier : Assignment)
    (h : l ≠ State.literalOf l.natAbs value) :
    refutes ((l.natAbs, value) :: earlier) l = true := by
  rw [refutes_iff hl, value?_cons_self]
  have hsign : value ≠ decide (0 < l) := fun heq =>
    h ((eq_literalOf_iff (by omega)).2 ⟨rfl, heq⟩)
  cases value <;> cases hpos : decide (0 < l) <;> simp_all

theorem refutes_of_mark_eq {a : Assignment} {clause : List Int} {l : Int} (hl : l ≠ 0)
    (h : a.mark clause l = .falsified) : a.refutes l = true := by
  induction a with
  | nil => cases h
  | cons e earlier ih =>
      obtain ⟨v, value⟩ := e
      rw [mark] at h
      by_cases hv : l.natAbs = v
      · subst hv
        rw [if_pos rfl] at h
        split at h
        · cases h
        · split at h
          · cases h
          · next hliteral => exact refutes_cons_self hl earlier hliteral
      · rw [if_neg hv] at h
        rw [refutes_cons_of_ne hv, ih h]

/-- In a clause that is not satisfied no mark is missing: a false literal is marked false. -/
theorem mark_eq_of_refutes {F : Formula} {a : Assignment} (ha : a.Proper F) {clause : List Int}
    (hopen : a.satisfies clause = false) {l : Int} (hl : l ≠ 0) (h : a.refutes l = true) :
    a.mark clause l = .falsified := by
  induction a with
  | nil => simp [refutes] at h
  | cons e earlier ih =>
      obtain ⟨v, value⟩ := e
      obtain ⟨⟨hlow, -⟩, hfree, hearlier⟩ := ha
      -- the clause was not satisfied when the variable was assigned, so its literals were marked
      have hbefore := not_satisfies_earlier hlow hfree hopen
      rw [mark]
      by_cases hv : l.natAbs = v
      · subst hv
        have hliteral : l ≠ State.literalOf l.natAbs value := by
          intro heq
          have hholds : holds ((l.natAbs, value) :: earlier) l = true := by
            rw [holds_cons hlow, if_pos rfl, decide_eq_true heq]
          rw [not_refutes_of_holds hl hholds] at h
          cases h
        simp [hbefore, hliteral]
      · rw [if_neg hv]
        rw [refutes_cons_of_ne hv] at h
        exact ih hearlier hbefore h

theorem satisfies_eq_false_of_falsifies {a : Assignment} {clause : List Int}
    (hne : ∀ l ∈ clause, l ≠ 0) (h : a.falsifies clause = true) : a.satisfies clause = false := by
  rw [satisfies, List.any_eq_false]
  intro l hl htrue
  have hfalse := List.all_eq_true.1 h l hl
  rw [not_refutes_of_holds (hne l hl) htrue] at hfalse
  cases hfalse

/-- A row is all falsified just when the clause is. -/
theorem all_row {F : Formula} {a : Assignment} (ha : a.Proper F) {clause : List Int}
    (hne : ∀ l ∈ clause, l ≠ 0) : (a.row clause).all (· == .falsified) = a.falsifies clause := by
  rw [Bool.eq_iff_iff, row, List.all_map, falsifies]
  simp only [List.all_eq_true, Function.comp_apply, beq_iff_eq]
  constructor
  · intro h l hl
    exact refutes_of_mark_eq (hne l hl) (h l hl)
  · intro h l hl
    have hopen := satisfies_eq_false_of_falsifies hne (List.all_eq_true.2 h)
    exact mark_eq_of_refutes ha hopen (hne l hl) (h l hl)

/-! ## The lowest free variable -/

theorem findIdx?_range_succ (p : Nat → Bool) (n : Nat) :
    ((List.range n).findIdx? fun index => p (index + 1)).map (· + 1) =
      (List.range' 1 n).find? p := by
  induction n with
  | zero => rfl
  | succ n ih =>
      rw [List.range_succ, List.findIdx?_append, List.range'_1_concat, List.find?_append, ← ih]
      cases (List.range n).findIdx? fun index => p (index + 1) with
      | some index => rfl
      | none => by_cases hp : p (n + 1) <;> simp [Nat.add_comm 1 n, hp]

theorem firstFree?_eq_some {F : Formula} {a : Assignment} {v : Nat}
    (h : a.firstFree? F = some v) : (1 ≤ v ∧ v ≤ F.numVars) ∧ a.value? v = none := by
  have hmem := List.mem_of_find?_eq_some h
  rw [List.mem_range'_1] at hmem
  exact ⟨by omega, by simpa using List.find?_some h⟩

theorem firstFree?_eq_none {F : Formula} {a : Assignment} (h : a.firstFree? F = none) {v : Nat}
    (hlow : 1 ≤ v) (hhigh : v ≤ F.numVars) : a.value? v ≠ none := by
  have hmem : v ∈ List.range' 1 F.numVars := by
    rw [List.mem_range'_1]
    omega
  simpa using List.find?_eq_none.1 h v hmem

/-- If every variable has a value, a clause is satisfied or falsified. -/
theorem satisfies_of_not_free {F : Formula} {a : Assignment} (hfree : a.firstFree? F = none)
    (hconflict : ¬F.clauses.any a.falsifies = true) : F.clauses.all a.satisfies = true := by
  rw [List.all_eq_true]
  intro clause hclause
  by_cases hsatisfied : a.satisfies clause = true
  · exact hsatisfied
  · refine absurd (List.any_eq_true.2 ⟨clause, hclause, List.all_eq_true.2 fun l hl => ?_⟩)
      hconflict
    obtain ⟨hne, hlow, hhigh⟩ := F.literal_inRange hclause hl
    rcases holds_or_refutes hne (firstFree?_eq_none hfree hlow hhigh) with htrue | hfalse
    · exact absurd (List.any_eq_true.2 ⟨l, hl, htrue⟩) hsatisfied
    · exact hfalse

end Assignment

namespace State

theorem isConflict_along {F : Formula} {a : Assignment} (ha : a.Proper F) {index : Nat}
    (hindex : index < F.numClauses) :
    (along F a).isConflict index = a.falsifies (F.clause index) := by
  have hrow : (along F a).marks.getD index [] = a.row (F.clause index) := by
    simp [along, Formula.clause, List.getElem?_eq_getElem hindex]
  rw [isConflict, hrow]
  exact Assignment.all_row ha fun l hl => (F.literal_inRange (F.clause_mem hindex) hl).1

theorem hasConflict_along {F : Formula} {a : Assignment} (ha : a.Proper F) :
    (along F a).hasConflict = F.clauses.any a.falsifies := by
  rw [hasConflict, along, List.any_map]
  exact any_eq_any_of_mem fun clause hclause =>
    Assignment.all_row ha fun l hl => (F.literal_inRange hclause hl).1

theorem isSolved_along (F : Formula) (a : Assignment) :
    (along F a).isSolved = F.clauses.all a.satisfies := by
  rw [isSolved, along, Bool.eq_iff_iff, List.isEmpty_iff, List.all_eq_true,
    List.eq_nil_iff_forall_not_mem]
  simp only [Assignment.mem_frame, not_and, Bool.not_eq_false]
  constructor
  · intro h clause hclause
    obtain ⟨index, hindex, rfl⟩ := List.mem_iff_getElem.1 hclause
    have hsatisfied := h index hindex
    rwa [Formula.clause, List.getD_eq_getElem?_getD, List.getElem?_eq_getElem hindex,
      Option.getD_some] at hsatisfied
  · intro h index hindex
    rw [Formula.clause, List.getD_eq_getElem?_getD, List.getElem?_eq_getElem hindex,
      Option.getD_some]
    exact h _ (List.getElem_mem hindex)

theorem firstFree?_along (F : Formula) (a : Assignment) :
    (along F a).firstFree? = a.firstFree? F := by
  rw [firstFree?, along, List.findIdx?_map, Assignment.firstFree?,
    ← Assignment.findIdx?_range_succ fun v => (a.value? v).isNone]
  congr 2
  funext index
  cases h : a.value? (index + 1) <;> simp [h]

/-! ## The literals of a state -/

/-- A literal is that of the variable at its place, with the value that makes it true. -/
theorem literalOf_place {l : Int} (hl : l ≠ 0) :
    literalOf (l.natAbs - 1 + 1) (decide (0 < l)) = l := by
  symm
  rw [Assignment.eq_literalOf_iff (by omega)]
  exact ⟨by omega, rfl⟩

/-- Just those literals are listed that the values make true. -/
theorem mem_literals_iff {s : State} {l : Int} :
    l ∈ s.literals ↔ l ≠ 0 ∧ s.values[l.natAbs - 1]? = some (some (decide (0 < l))) := by
  rw [literals, List.mem_filterMap]
  constructor
  · rintro ⟨⟨entry, index⟩, hentry, hl⟩
    obtain ⟨value, rfl, rfl⟩ := Option.map_eq_some_iff.1 hl
    rw [List.mem_zipIdx_iff_getElem?] at hentry
    have hlow : 1 ≤ index + 1 := by omega
    obtain ⟨hvar, hvalue⟩ := (Assignment.eq_literalOf_iff hlow).1 (Eq.refl (literalOf _ value))
    refine ⟨by omega, ?_⟩
    rw [hvar, ← hvalue]
    exact hentry
  · rintro ⟨hl, hentry⟩
    refine ⟨(some (decide (0 < l)), l.natAbs - 1), ?_, ?_⟩
    · rwa [List.mem_zipIdx_iff_getElem?]
    · exact congrArg some (literalOf_place hl)

/-- Their variables ascend. -/
theorem pairwise_literals (s : State) : (s.literals.map Int.natAbs).Pairwise (· < ·) := by
  have hplaces : s.values.zipIdx.Pairwise fun e f => e.2 < f.2 := by
    rw [← List.pairwise_map, List.zipIdx_map_snd]
    exact List.pairwise_lt_range'
  rw [List.pairwise_map, literals, List.pairwise_filterMap]
  refine hplaces.imp fun {e f} hlt l hl k hk => ?_
  obtain ⟨value, -, rfl⟩ := Option.map_eq_some_iff.1 hl
  obtain ⟨other, -, rfl⟩ := Option.map_eq_some_iff.1 hk
  rw [Assignment.natAbs_literalOf, Assignment.natAbs_literalOf]
  omega

theorem mem_literals_along {F : Formula} {a : Assignment} (ha : a.Proper F) {l : Int} :
    l ∈ (along F a).literals ↔ ∃ e ∈ a, literalOf e.1 e.2 = l := by
  rw [mem_literals_iff]
  constructor
  · rintro ⟨hl, hentry⟩
    have hvalue : a.value? (l.natAbs - 1 + 1) = some (decide (0 < l)) := by
      rw [along, List.getElem?_map, Option.map_eq_some_iff] at hentry
      obtain ⟨place, hplace, hvalue⟩ := hentry
      obtain ⟨hindex, rfl⟩ := List.getElem?_eq_some_iff.1 hplace
      simpa using hvalue
    obtain ⟨e, he, hvar⟩ := List.mem_map.1 (Assignment.mem_of_value?_eq_some hvalue)
    rw [← hvar, ha.value?_of_mem he, Option.some.injEq] at hvalue
    exact ⟨e, he, by rw [hvar, hvalue, literalOf_place hl]⟩
  · rintro ⟨e, he, rfl⟩
    obtain ⟨hlow, hhigh⟩ := ha.inRange_of_mem he
    obtain ⟨hvar, hsign⟩ := (Assignment.eq_literalOf_iff hlow).1 (Eq.refl (literalOf e.1 e.2))
    refine ⟨by omega, ?_⟩
    rw [hvar, getElem?_values_along hlow hhigh, ha.value?_of_mem he, ← hsign]

end State

end TrailSat
