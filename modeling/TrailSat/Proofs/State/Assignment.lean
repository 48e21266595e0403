import TrailSat.Formula.Semantics
import TrailSat.State.Requests

/-!
# Assignments in the order in which they were made

An `Assignment` lists variables with their values, the last assigned first.  It is the part of a
state that everything else in the state can be computed from, and it gives clauses a meaning of its
own: a clause is *satisfied* when one of its literals is true and *falsified* when all of them are
false, whatever has been marked where.

A clause that is neither may become either; `holds_of_extends` and `not_holds_of_refutes` say that
a literal whose truth is known keeps it in every valuation that extends the assignment.
-/

namespace TrailSat

/-- Variables with their values, the last assigned first. -/
abbrev Assignment : Type :=
  List (Nat × Bool)

/-- Every literal of a formula belongs to one of its variables. -/
theorem Formula.literal_inRange (F : Formula) {clause : List Int} (hclause : clause ∈ F.clauses)
    {l : Int} (hl : l ∈ clause) : l ≠ 0 ∧ 1 ≤ l.natAbs ∧ l.natAbs ≤ F.numVars := by
  obtain ⟨hne, hhigh⟩ := F.inRange clause hclause l hl
  exact ⟨hne, by omega, hhigh⟩

theorem Formula.clause_mem (F : Formula) {index : Nat} (hindex : index < F.numClauses) :
    F.clause index ∈ F.clauses := by
  rw [clause, List.getD_eq_getElem?_getD, List.getElem?_eq_getElem hindex, Option.getD_some]
  exact List.getElem_mem hindex

theorem Formula.literalAt_inRange (F : Formula) {index place : Nat} {clause : List Int} {l : Int}
    (hclause : F.clauses[index]? = some clause) (hl : clause[place]? = some l) :
    l ≠ 0 ∧ 1 ≤ l.natAbs ∧ l.natAbs ≤ F.numVars :=
  F.literal_inRange (List.mem_of_getElem? hclause) (List.mem_of_getElem? hl)

namespace Assignment

/-- The value of a variable, if it has one. -/
def value? (a : Assignment) (v : Nat) : Option Bool :=
  a.lookup v

/-- Whether a literal is true. -/
def holds (a : Assignment) (l : Int) : Bool :=
  a.value? l.natAbs == some (decide (0 < l))

/-- Whether a literal is false. -/
def refutes (a : Assignment) (l : Int) : Bool :=
  a.value? l.natAbs == some (decide (l < 0))

/-- Whether some literal of a clause is true. -/
def satisfies (a : Assignment) (clause : List Int) : Bool :=
  clause.any a.holds

/-- Whether all literals of a clause are false. -/
def falsifies (a : Assignment) (clause : List Int) : Bool :=
  clause.all a.refutes

/-- The unassigned variable with the lowest number. -/
def firstFree? (F : Formula) (a : Assignment) : Option Nat :=
  (List.range' 1 F.numVars).find? fun v => (a.value? v).isNone

/-- Each variable is one of the formula's, and none is assigned twice. -/
def Proper (F : Formula) : Assignment → Prop
  | [] => True
  | (v, _) :: earlier =>
    (1 ≤ v ∧ v ≤ F.numVars) ∧ value? earlier v = none ∧ Proper F earlier

/-! ## The literals of a variable -/

theorem natAbs_literalOf (v : Nat) (value : Bool) : (State.literalOf v value).natAbs = v := by
  cases value <;> simp [State.literalOf]

theorem neg_literalOf (v : Nat) (value : Bool) :
    -State.literalOf v value = State.literalOf v (!value) := by
  cases value <;> simp [State.literalOf]

/-- The literal of a variable that is true under a value has the variable's number and the sign
that goes with the value. -/
theorem eq_literalOf_iff {l : Int} {v : Nat} {value : Bool} (hv : 1 ≤ v) :
    l = State.literalOf v value ↔ l.natAbs = v ∧ value = decide (0 < l) := by
  cases value with
  | true =>
      simp only [State.literalOf, if_true, eq_comm (a := true), decide_eq_true_eq]
      omega
  | false =>
      simp only [State.literalOf, eq_comm (a := false), decide_eq_false_iff_not]
      simp
      omega

/-! ## Values -/

@[simp] theorem value?_nil (v : Nat) : value? [] v = none :=
  rfl

theorem value?_cons (v : Nat) (value : Bool) (earlier : Assignment) (w : Nat) :
    value? ((v, value) :: earlier) w = if w = v then some value else value? earlier w := by
  rw [value?, List.lookup_cons, value?]
  by_cases h : w = v
  · simp [h]
  · rw [if_neg h, beq_false_of_ne h]

@[simp] theorem value?_cons_self (v : Nat) (value : Bool) (earlier : Assignment) :
    value? ((v, value) :: earlier) v = some value := by
  rw [value?_cons, if_pos rfl]

theorem value?_cons_of_ne {v w : Nat} (h : w ≠ v) (value : Bool) (earlier : Assignment) :
    value? ((v, value) :: earlier) w = value? earlier w := by
  rw [value?_cons, if_neg h]

theorem value?_append (later earlier : Assignment) (v : Nat) :
    value? (later ++ earlier) v = (value? later v).or (value? earlier v) :=
  List.lookup_append ..

/-- Just the listed variables have values. -/
theorem value?_eq_none_iff {a : Assignment} {v : Nat} :
    a.value? v = none ↔ v ∉ a.map Prod.fst := by
  induction a with
  | nil => simp
  | cons e earlier ih =>
      obtain ⟨w, value⟩ := e
      rw [value?_cons, List.map_cons, List.mem_cons, not_or]
      by_cases h : v = w
      · simp [h]
      · rw [if_neg h, ih]
        simp [h]

theorem mem_of_value?_eq_some {a : Assignment} {v : Nat} {value : Bool}
    (h : a.value? v = some value) : v ∈ a.map Prod.fst := by
  by_cases hmem : v ∈ a.map Prod.fst
  · exact hmem
  · rw [value?_eq_none_iff.2 hmem] at h
    cases h

theorem holds_iff {a : Assignment} {l : Int} :
    a.holds l = true ↔ a.value? l.natAbs = some (decide (0 < l)) := by
  simp [holds]

theorem refutes_iff {a : Assignment} {l : Int} (hl : l ≠ 0) :
    a.refutes l = true ↔ a.value? l.natAbs = some (!decide (0 < l)) := by
  have hsign : decide (l < 0) = !decide (0 < l) := by
    rw [← decide_not]
    exact decide_eq_decide.2 (by omega)
  simp [refutes, hsign]

theorem not_refutes_of_holds {a : Assignment} {l : Int} (hl : l ≠ 0) (h : a.holds l = true) :
    a.refutes l = false := by
  rw [Bool.eq_false_iff]
  intro hfalse
  have hvalue := (refutes_iff hl).1 hfalse
  rw [holds_iff.1 h] at hvalue
  simp at hvalue

theorem holds_or_refutes {a : Assignment} {l : Int} (hl : l ≠ 0)
    (h : a.value? l.natAbs ≠ none) : a.holds l = true ∨ a.refutes l = true := by
  obtain ⟨value, hvalue⟩ := Option.ne_none_iff_exists'.1 h
  rw [holds_iff, refutes_iff hl, hvalue]
  cases value <;> cases decide (0 < l) <;> simp

/-! ## One more variable -/

theorem holds_cons {v : Nat} (hv : 1 ≤ v) (value : Bool) (earlier : Assignment) (l : Int) :
    holds ((v, value) :: earlier) l =
      if l.natAbs = v then decide (l = State.literalOf v value) else holds earlier l := by
  by_cases h : l.natAbs = v
  · rw [if_pos h, Bool.eq_iff_iff, holds_iff, h, value?_cons_self, decide_eq_true_iff,
      eq_literalOf_iff hv]
    simp [h]
  · rw [if_neg h, holds, value?_cons_of_ne h, holds]

theorem holds_eq_false_of_free {a : Assignment} {l : Int} (h : a.value? l.natAbs = none) :
    a.holds l = false := by
  simp [holds, h]

/-- After one more assignment the satisfied clauses are those that were satisfied before and those
in which the literal occurs that became true. -/
theorem satisfies_cons {v : Nat} {earlier : Assignment} (hv : 1 ≤ v)
    (hfree : earlier.value? v = none) (value : Bool) (clause : List Int) :
    satisfies ((v, value) :: earlier) clause =
      (clause.contains (State.literalOf v value) || satisfies earlier clause) := by
  -- the new assignment makes just one literal true, and no literal false that was true
  have hliteral (l : Int) : holds ((v, value) :: earlier) l =
      (l == State.literalOf v value || holds earlier l) := by
    rw [holds_cons hv]
    by_cases h : l.natAbs = v
    · rw [if_pos h, holds_eq_false_of_free (a := earlier) (by rw [h]; exact hfree), Bool.or_false]
      rfl
    · have hne : l ≠ State.literalOf v value := fun heq => h ((eq_literalOf_iff hv).1 heq).1
      rw [if_neg h, beq_false_of_ne hne, Bool.false_or]
  induction clause with
  | nil => rfl
  | cons l rest ih =>
      simp only [satisfies, List.any_cons, List.contains_cons] at ih ⊢
      rw [ih, hliteral, BEq.comm (a := State.literalOf v value)]
      cases l == State.literalOf v value <;> cases holds earlier l <;> simp

theorem not_satisfies_earlier {v : Nat} {value : Bool} {earlier : Assignment}
    {clause : List Int} (hv : 1 ≤ v) (hfree : earlier.value? v = none)
    (h : satisfies ((v, value) :: earlier) clause = false) :
    satisfies earlier clause = false := by
  rw [satisfies_cons hv hfree, Bool.or_eq_false_iff] at h
  exact h.2

/-! ## Proper assignments -/

theorem Proper.inRange_of_mem {F : Formula} {a : Assignment} (ha : a.Proper F)
    {e : Nat × Bool} (he : e ∈ a) : 1 ≤ e.1 ∧ e.1 ≤ F.numVars := by
  induction a with
  | nil => simp at he
  | cons first earlier ih =>
      obtain ⟨hrange, -, hearlier⟩ := ha
      rcases List.mem_cons.1 he with rfl | he
      · exact hrange
      · exact ih hearlier he

/-- No later assignment hides an earlier one. -/
theorem Proper.value?_of_mem {F : Formula} {a : Assignment} (ha : a.Proper F)
    {e : Nat × Bool} (he : e ∈ a) : a.value? e.1 = some e.2 := by
  induction a with
  | nil => simp at he
  | cons first earlier ih =>
      obtain ⟨-, hfree, hearlier⟩ := ha
      rcases List.mem_cons.1 he with rfl | he
      · exact value?_cons_self ..
      · have hvalue := ih hearlier he
        have hne : e.1 ≠ first.1 := by
          intro heq
          rw [heq, hfree] at hvalue
          simp at hvalue
        rw [value?_cons_of_ne hne, hvalue]

theorem Proper.nodup {F : Formula} {a : Assignment} (ha : a.Proper F) :
    (a.map Prod.fst).Nodup := by
  induction a with
  | nil => exact List.nodup_nil
  | cons e earlier ih =>
      obtain ⟨-, hfree, hearlier⟩ := ha
      exact List.nodup_cons.2 ⟨value?_eq_none_iff.1 hfree, ih hearlier⟩

/-- Later assignments leave the values of the earlier ones alone. -/
theorem Proper.value?_append {F : Formula} {later earlier : Assignment}
    (h : Proper F (later ++ earlier)) {v : Nat} (hv : v ∈ earlier.map Prod.fst) :
    value? (later ++ earlier) v = value? earlier v := by
  induction later with
  | nil => rfl
  | cons e rest ih =>
      obtain ⟨-, hfree, hrest⟩ := h
      -- the variable of a later assignment was free until then
      have hnot : e.1 ∉ (rest ++ earlier).map Prod.fst := value?_eq_none_iff.1 hfree
      have hne : v ≠ e.1 := by
        rintro rfl
        exact hnot (by rw [List.map_append]; exact List.mem_append_right _ hv)
      rw [List.cons_append, value?_cons_of_ne hne, ih hrest]

end Assignment

/-! ## Valuations that extend an assignment -/

namespace Valuation

/-- Every variable with a value keeps it. -/
def Extends (valuation : Valuation) (a : Assignment) : Prop :=
  ∀ v value, a.value? v = some value → valuation v = value

theorem holds_of_extends {valuation : Valuation} {a : Assignment} (h : valuation.Extends a)
    {l : Int} (hl : a.holds l = true) : valuation.holds l = true := by
  have hvalue := h _ _ (Assignment.holds_iff.1 hl)
  rw [holds, hvalue]
  by_cases hsign : 0 < l <;> simp [hsign]

theorem not_holds_of_refutes {valuation : Valuation} {a : Assignment} (h : valuation.Extends a)
    {l : Int} (hne : l ≠ 0) (hl : a.refutes l = true) : valuation.holds l = false := by
  have hvalue := h _ _ ((Assignment.refutes_iff hne).1 hl)
  rw [holds, hvalue]
  by_cases hsign : 0 < l <;> simp [hsign]

/-- A valuation that extends an assignment extends it by each of its own values. -/
theorem extends_cons {valuation : Valuation} {a : Assignment} (h : valuation.Extends a) (v : Nat) :
    valuation.Extends ((v, valuation v) :: a) := by
  intro w value hvalue
  rw [Assignment.value?_cons] at hvalue
  by_cases hw : w = v
  · rw [if_pos hw] at hvalue
    rw [hw]
    exact Option.some.inj hvalue
  · rw [if_neg hw] at hvalue
    exact h w value hvalue

end Valuation

/-- The valuation in which every variable without a value is false. -/
def Assignment.toValuation (a : Assignment) : Valuation :=
  fun v => (a.value? v).getD false

theorem Assignment.extends_toValuation (a : Assignment) : a.toValuation.Extends a := by
  intro v value h
  rw [Assignment.toValuation, h, Option.getD_some]

end TrailSat
