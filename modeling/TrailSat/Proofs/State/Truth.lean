import TrailSat.Proofs.State.Layout
import TrailSat.Proofs.State.Queries

/-!
# The queries tell the truth

A state answers four questions without looking at its values: whether a clause is in conflict,
whether any is, whether the formula is solved, and which variable is free.  The first two read the
marks and the third one the present frame.  `State.Truthful` says what the answers mean in terms of
the values, and `truthful_of_reachable` that they mean it in every reachable state, whatever has
been assigned and taken back before.

Solved formulas can also be told by the marks.  A satisfied clause may lack many of its marks, but
never the one of the literal that satisfied it first (`exists_satisfying_mark`).
-/

namespace TrailSat

namespace Assignment

theorem holds_cons_of_ne {v : Nat} {l : Int} (h : l.natAbs ≠ v) (value : Bool)
    (earlier : Assignment) : holds ((v, value) :: earlier) l = holds earlier l := by
  rw [holds, value?_cons_of_ne h, holds]

theorem holds_of_mark_eq {F : Formula} {a : Assignment} (ha : a.Proper F) {clause : List Int}
    {l : Int} (h : a.mark clause l = .satisfying) : a.holds l = true := by
  induction a with
  | nil => cases h
  | cons e earlier ih =>
      obtain ⟨v, value⟩ := e
      obtain ⟨⟨hlow, -⟩, -, hearlier⟩ := ha
      rw [mark] at h
      by_cases hv : l.natAbs = v
      · rw [if_pos hv] at h
        split at h
        · cases h
        · split at h
          · next hliteral => rw [holds_cons hlow, if_pos hv, decide_eq_true hliteral]
          · cases h
      · rw [if_neg hv] at h
        rw [holds_cons_of_ne hv, ih hearlier h]

/-- The literal that satisfied a clause first is marked. -/
theorem exists_satisfying_mark {F : Formula} {a : Assignment} (ha : a.Proper F)
    {clause : List Int} (h : a.satisfies clause = true) :
    ∃ l ∈ clause, a.mark clause l = .satisfying := by
  induction a with
  | nil => simp [satisfies, holds] at h
  | cons e earlier ih =>
      obtain ⟨v, value⟩ := e
      obtain ⟨⟨hlow, -⟩, hfree, hearlier⟩ := ha
      cases hbefore : satisfies earlier clause with
      | true =>
          -- its mark was made earlier, and belongs to another variable
          obtain ⟨l, hl, hmark⟩ := ih hearlier hbefore
          have hne : l.natAbs ≠ v := by
            intro heq
            rw [mark_of_free clause (by rw [heq]; exact hfree)] at hmark
            cases hmark
          exact ⟨l, hl, by rw [mark, if_neg hne, hmark]⟩
      | false =>
          -- the clause was still active, and the new literal occurs in it
          rw [satisfies_cons hlow hfree, hbefore, Bool.or_false, List.contains_iff_mem] at h
          have hvar : (State.literalOf v value).natAbs = v := ((eq_literalOf_iff hlow).1 rfl).1
          refine ⟨_, h, ?_⟩
          rw [mark, if_pos hvar, hbefore]
          simp

/-- A clause is satisfied just when a mark in its row says so. -/
theorem satisfies_iff_mem_row {F : Formula} {a : Assignment} (ha : a.Proper F)
    {clause : List Int} : a.satisfies clause = true ↔ .satisfying ∈ a.row clause := by
  rw [row, List.mem_map]
  constructor
  · exact exists_satisfying_mark ha
  · rintro ⟨l, hl, hmark⟩
    exact List.any_eq_true.2 ⟨l, hl, holds_of_mark_eq ha hmark⟩

end Assignment

namespace State

/-- What the answers of a state mean: a clause is in conflict if all its literals are false, and the
formula is solved if every clause has a true literal.  It cannot be both, and it is one of the two
if no variable is free. -/
structure Truthful (F : Formula) (s : State) : Prop where
  isConflict_iff : ∀ index, index < F.numClauses →
    (s.isConflict index = true ↔ ∀ l ∈ F.clause index, s.IsFalse F l)
  hasConflict_iff : s.hasConflict = true ↔
    ∃ index, index < F.numClauses ∧ ∀ l ∈ F.clause index, s.IsFalse F l
  isSolved_iff : s.isSolved = true ↔ ∀ clause ∈ F.clauses, ∃ l ∈ clause, s.IsTrue F l
  isSolved_iff_marks : s.isSolved = true ↔ ∀ row ∈ s.marks, .satisfying ∈ row
  not_both : ¬(s.isSolved = true ∧ s.hasConflict = true)
  one_of_full : s.firstFree? = none → s.isSolved = !s.hasConflict

/-! ## Answers along an assignment -/

theorem isFalse_along {F : Formula} {a : Assignment} (ha : a.Proper F) {l : Int} :
    (along F a).IsFalse F l ↔ a.refutes l = true := by
  rw [IsFalse, value_along_eq_some ha, Assignment.refutes, beq_iff_eq]

theorem falsifies_iff {F : Formula} {a : Assignment} (ha : a.Proper F) {clause : List Int} :
    a.falsifies clause = true ↔ ∀ l ∈ clause, (along F a).IsFalse F l := by
  simp only [Assignment.falsifies, List.all_eq_true, isFalse_along ha]

theorem satisfies_iff {F : Formula} {a : Assignment} (ha : a.Proper F) {clause : List Int} :
    a.satisfies clause = true ↔ ∃ l ∈ clause, (along F a).IsTrue F l := by
  simp only [Assignment.satisfies, List.any_eq_true, isTrue_along ha]

theorem not_solved_of_conflict {F : Formula} {a : Assignment}
    (hconflict : F.clauses.any a.falsifies = true) : F.clauses.all a.satisfies = false := by
  obtain ⟨clause, hclause, hfalse⟩ := List.any_eq_true.1 hconflict
  refine List.all_eq_false.2 ⟨clause, hclause, ?_⟩
  rw [Assignment.satisfies_eq_false_of_falsifies
    (fun l hl => (F.literal_inRange hclause hl).1) hfalse]
  exact Bool.false_ne_true

/-- **The queries tell the truth.**  In every reachable state their answers are those that
evaluating the clauses under the values would give. -/
theorem truthful_of_reachable {F : Formula} {s : State} (hs : Reachable F s) :
    Truthful F s := by
  obtain ⟨a, ha, rfl⟩ := reachable_iff_along.1 hs
  have hnot_both : (along F a).hasConflict = true → (along F a).isSolved = false := by
    rw [hasConflict_along ha, isSolved_along]
    exact not_solved_of_conflict
  constructor
  case isConflict_iff =>
    intro index hindex
    rw [isConflict_along ha hindex, falsifies_iff ha]
  case hasConflict_iff =>
    rw [hasConflict_along ha, List.any_eq_true]
    constructor
    · rintro ⟨clause, hclause, hfalse⟩
      obtain ⟨index, hindex, rfl⟩ := List.mem_iff_getElem.1 hclause
      refine ⟨index, hindex, ?_⟩
      rw [← falsifies_iff ha]
      simpa [Formula.clause, List.getElem?_eq_getElem hindex] using hfalse
    · rintro ⟨index, hindex, hfalse⟩
      exact ⟨F.clause index, F.clause_mem hindex, (falsifies_iff ha).2 hfalse⟩
  case isSolved_iff =>
    rw [isSolved_along, List.all_eq_true]
    simp only [satisfies_iff ha]
  case isSolved_iff_marks =>
    rw [isSolved_along, List.all_eq_true, along, List.forall_mem_map]
    simp only [Assignment.satisfies_iff_mem_row ha]
  case not_both =>
    rintro ⟨hsolved, hconflict⟩
    rw [hnot_both hconflict] at hsolved
    cases hsolved
  case one_of_full =>
    intro hfull
    rw [firstFree?_along] at hfull
    cases hconflict : (along F a).hasConflict with
    | true => exact hnot_both hconflict
    | false =>
        rw [hasConflict_along ha] at hconflict
        rw [isSolved_along]
        exact Assignment.satisfies_of_not_free hfull (by rw [hconflict]; exact Bool.false_ne_true)

/-- All three literals of the second clause are false, so the formula is not solved. -/
theorem truthful_of_knotted : Reachable Formula.knot knotted ∧
    (∀ l ∈ Formula.knot.clause 1, knotted.IsFalse Formula.knot l) ∧
      ¬knotted.isSolved = true := by
  have htruthful := truthful_of_reachable reachable_knotted
  refine ⟨reachable_knotted, ?_, fun hsolved => htruthful.not_both ⟨hsolved, rfl⟩⟩
  exact (htruthful.isConflict_iff 1 (by decide)).1 rfl

end State

end TrailSat
