import TrailSat.Proofs.State.Assignment

/-!
# The state along an assignment

`State.along F a` is the state that the assignment `a` ought to lead to, written down field by
field instead of being reached by steps:

* the values are those of `a`, and the trail lists its variables;
* the frame of `a` holds the clauses that `a` does not satisfy, and one frame is saved for every
  assignment, namely the frame of what had been assigned before it;
* a literal is marked when its variable was assigned while its clause was still unsatisfied, and
  stays unmarked otherwise (`Assignment.mark`).

`assign_along` and `unassign_along` say that the two operations on states move along assignments:
one puts a variable in front of the list, the other takes it off again.  Taking a variable off
wipes its marks in the whole formula although only those in active clauses were made.  That is
enough because `mark` leaves the marks of a free variable unset (`mark_of_free`).
-/

namespace TrailSat

namespace Assignment

/-! ## The parts of the state -/

/-- The indices of the clauses that are not satisfied. -/
def frame (F : Formula) (a : Assignment) : List Nat :=
  F.indices.filter fun index => !a.satisfies (F.clause index)

/-- The frames of what had been assigned before each of the variables, the last one first. -/
def savedFrames (F : Formula) : Assignment → List (List Nat)
  | [] => []
  | _ :: earlier => frame F earlier :: savedFrames F earlier

/-- The mark of a literal in a clause.  The literal was marked when its variable was assigned, but
only if the clause was not satisfied by then. -/
def mark (clause : List Int) : Assignment → Int → Mark
  | [], _ => .unset
  | (v, value) :: earlier, l =>
    if l.natAbs = v then
      if satisfies earlier clause then .unset
      else if l = State.literalOf v value then .satisfying else .falsified
    else mark clause earlier l

/-- The marks of the literals of a clause. -/
def row (a : Assignment) (clause : List Int) : List Mark :=
  clause.map (mark clause a)

theorem mem_frame {F : Formula} {a : Assignment} {index : Nat} :
    index ∈ frame F a ↔ index < F.numClauses ∧ a.satisfies (F.clause index) = false := by
  simp [frame, Formula.indices]

theorem mem_frame_of_getElem? {F : Formula} {a : Assignment} {index : Nat} {clause : List Int}
    (hclause : F.clauses[index]? = some clause) :
    index ∈ frame F a ↔ a.satisfies clause = false := by
  have hindex : index < F.numClauses := (List.getElem?_eq_some_iff.1 hclause).1
  have hat : F.clause index = clause := by simp [Formula.clause, hclause]
  rw [mem_frame, hat]
  exact and_iff_right hindex

@[simp] theorem length_savedFrames (F : Formula) (a : Assignment) :
    (savedFrames F a).length = a.length := by
  induction a with
  | nil => rfl
  | cons e earlier ih => simp [savedFrames, ih]

/-- The literals of a variable without a value are unmarked. -/
theorem mark_of_free {a : Assignment} {l : Int} (clause : List Int)
    (h : a.value? l.natAbs = none) : mark clause a l = .unset := by
  induction a with
  | nil => rfl
  | cons e earlier ih =>
      obtain ⟨v, value⟩ := e
      have hne : l.natAbs ≠ v := by
        intro heq
        rw [heq, value?_cons_self] at h
        simp at h
      rw [value?_cons_of_ne hne] at h
      rw [mark, if_neg hne, ih h]

theorem row_cons_of_satisfied {a : Assignment} {clause : List Int} {v : Nat} (value : Bool)
    (hfree : a.value? v = none) (hsatisfied : a.satisfies clause = true) :
    row ((v, value) :: a) clause = row a clause := by
  refine List.map_congr_left fun l _ => ?_
  by_cases hl : l.natAbs = v
  · rw [mark, if_pos hl, if_pos hsatisfied, mark_of_free clause (by rw [hl]; exact hfree)]
  · rw [mark, if_neg hl]

/-! ## Marking and wiping a row -/

theorem markClause_row {a : Assignment} {clause : List Int} {v : Nat} (hv : 1 ≤ v) (value : Bool)
    (hopen : a.satisfies clause = false) :
    State.markClause (State.literalOf v value) clause (row a clause) =
      row ((v, value) :: a) clause := by
  unfold State.markClause row
  rw [List.zipWith_map_right, List.zipWith_self]
  refine List.map_congr_left fun l _ => ?_
  rw [mark]
  by_cases hl : l.natAbs = v
  · rw [if_pos hl, hopen]
    by_cases hmade : l = State.literalOf v value
    · simp [hmade]
    · -- the variable has only two literals
      have hopposite : l = -State.literalOf v value := by
        rw [neg_literalOf, eq_literalOf_iff hv]
        rw [eq_literalOf_iff hv] at hmade
        refine ⟨hl, ?_⟩
        cases value <;> simp_all
      rw [if_neg hmade, if_pos hopposite]
      simp [hmade]
  · have hmade : l ≠ State.literalOf v value := fun heq => hl ((eq_literalOf_iff hv).1 heq).1
    have hopposite : l ≠ -State.literalOf v value := by
      rw [neg_literalOf]
      exact fun heq => hl ((eq_literalOf_iff hv).1 heq).1
    rw [if_neg hmade, if_neg hopposite, if_neg hl]

theorem wipeClause_row {a : Assignment} {v : Nat} (value : Bool) (hfree : a.value? v = none)
    (clause : List Int) :
    State.wipeClause v clause (row ((v, value) :: a) clause) = row a clause := by
  unfold State.wipeClause row
  rw [List.zipWith_map_right, List.zipWith_self]
  refine List.map_congr_left fun l _ => ?_
  by_cases hl : l.natAbs = v
  · -- wiping is right even where nothing was marked
    rw [if_pos hl, mark_of_free clause (by rw [hl]; exact hfree)]
  · rw [if_neg hl, mark, if_neg hl]

end Assignment

namespace State

/-- The state that an assignment leads to. -/
def along (F : Formula) (a : Assignment) : State where
  values := (List.range F.numVars).map fun index => a.value? (index + 1)
  marks := F.clauses.map a.row
  active := a.frame F
  saved := a.savedFrames F
  trail := a.map Prod.fst

theorem along_nil (F : Formula) : along F [] = initial F := by
  have hactive : Assignment.frame F [] = F.indices := by
    refine List.filter_eq_self.2 fun index _ => ?_
    simp [Assignment.satisfies, Assignment.holds]
  have hmarks : Assignment.row [] = fun clause => List.replicate clause.length Mark.unset := by
    funext clause
    exact List.map_const' ..
  have hvalues : (List.range F.numVars).map (fun index => Assignment.value? [] (index + 1)) =
      List.replicate F.numVars none := by
    simp only [Assignment.value?_nil, List.map_const', List.length_range]
  simp only [along, initial, hactive, hmarks, hvalues, Assignment.savedFrames, List.map_nil]

theorem depth_along (F : Formula) (a : Assignment) : (along F a).depth = a.length :=
  Assignment.length_savedFrames F a

/-! ## Values along an assignment -/

theorem getElem?_values_along {F : Formula} {a : Assignment} {v : Nat} (hlow : 1 ≤ v)
    (hhigh : v ≤ F.numVars) : (along F a).values[v - 1]? = some (a.value? v) := by
  have hindex : v - 1 < F.numVars := by omega
  simp [along, hindex, show v - 1 + 1 = v by omega]

theorem value_along {F : Formula} {a : Assignment} {v : Nat} (hlow : 1 ≤ v)
    (hhigh : v ≤ F.numVars) : (along F a).value F v = .ok (a.value? v) := by
  rw [value, if_pos ⟨hlow, hhigh⟩, getElem?_values_along hlow hhigh]

theorem value_of_outOfRange {F : Formula} {s : State} {v : Nat}
    (h : ¬(1 ≤ v ∧ v ≤ F.numVars)) :
    s.value F v = .error (.noSuchVariable (.int v) F.numVars) := by
  rw [value, if_neg h]

theorem value_along_eq_some {F : Formula} {a : Assignment} (ha : a.Proper F) {v : Nat}
    {value : Bool} : (along F a).value F v = .ok (some value) ↔ a.value? v = some value := by
  by_cases hrange : 1 ≤ v ∧ v ≤ F.numVars
  · rw [value_along hrange.1 hrange.2, Except.ok.injEq]
  · rw [value_of_outOfRange hrange]
    constructor
    · intro h
      cases h
    · intro h
      obtain ⟨e, he, rfl⟩ := List.mem_map.1 (Assignment.mem_of_value?_eq_some h)
      exact absurd (ha.inRange_of_mem he) hrange

/-- Overwriting one value gives the values of another assignment if that has the new value there
and differs nowhere else. -/
theorem set_values_along {F : Formula} {a b : Assignment} {v : Nat} {entry : Option Bool}
    (hlow : 1 ≤ v) (hentry : b.value? v = entry)
    (hother : ∀ w, w ≠ v → b.value? w = a.value? w) :
    (along F a).values.set (v - 1) entry = (along F b).values := by
  apply List.ext_getElem
  · simp [along]
  · intro index _ _
    rw [List.getElem_set]
    by_cases hindex : v - 1 = index
    · simp [along, ← hentry, ← hindex, show v - 1 + 1 = v by omega]
    · simp [along, hindex, hother (index + 1) (by omega)]

/-! ## Assigning -/

/-- Marking touches the rows of the active clauses and no others. -/
theorem getElem?_markActive {F : Formula} {active : List Nat} {made : Int}
    {marks : List (List Mark)} {index : Nat} {clause : List Int} {row : List Mark}
    (hclause : F.clauses[index]? = some clause) (hrow : marks[index]? = some row) :
    (markActive F active made marks)[index]? =
      some (if active.contains index then markClause made clause row else row) := by
  have hindex : index < F.numClauses := (List.getElem?_eq_some_iff.1 hclause).1
  have hpair : (F.clauses.zip marks)[index]? = some (clause, row) :=
    List.getElem?_zip_eq_some.2 ⟨hclause, hrow⟩
  have hactive : (listed F.numClauses active).getD index false = active.contains index := by
    rw [getD_listed, decide_eq_true hindex, Bool.true_and]
  simp only [markActive, List.getElem?_map, List.getElem?_zipIdx, hpair, Option.map_some,
    Nat.zero_add, hactive]

theorem length_markActive {F : Formula} {active : List Nat} {made : Int}
    {marks : List (List Mark)} (h : marks.length = F.clauses.length) :
    (markActive F active made marks).length = F.clauses.length := by
  simp [markActive, h]

theorem activeWithout_frame {F : Formula} {a : Assignment} {v : Nat} (hlow : 1 ≤ v)
    (hfree : a.value? v = none) (value : Bool) :
    activeWithout F (a.frame F) (literalOf v value) =
      Assignment.frame F ((v, value) :: a) := by
  -- filtering the frame filters all indices by both conditions
  simp only [activeWithout, Assignment.frame, List.filter_filter]
  refine List.filter_congr fun index _ => ?_
  rw [Assignment.satisfies_cons hlow hfree, Bool.not_or]
  simp [Formula.clause]

theorem markActive_along {F : Formula} {a : Assignment} {v : Nat} (hlow : 1 ≤ v)
    (hfree : a.value? v = none) (value : Bool) :
    markActive F (a.frame F) (literalOf v value) (along F a).marks =
      (along F ((v, value) :: a)).marks := by
  have hlength : (along F a).marks.length = F.clauses.length := List.length_map ..
  apply List.ext_getElem?
  intro index
  cases hclause : F.clauses[index]? with
  | none =>
      have hend : F.clauses.length ≤ index := List.getElem?_eq_none_iff.1 hclause
      rw [List.getElem?_eq_none (by rw [length_markActive hlength]; exact hend)]
      exact (List.getElem?_eq_none (by simpa [along] using hend)).symm
  | some clause =>
      have hrow : (along F a).marks[index]? = some (a.row clause) := by simp [along, hclause]
      have hrow' : (along F ((v, value) :: a)).marks[index]? =
          some (Assignment.row ((v, value) :: a) clause) := by simp [along, hclause]
      have hactive : (a.frame F).contains index = !a.satisfies clause := by
        rw [Bool.eq_iff_iff, List.contains_iff_mem, Assignment.mem_frame_of_getElem? hclause]
        simp
      rw [getElem?_markActive hclause hrow, hrow', hactive]
      congr 1
      -- the rows of satisfied clauses are left alone, and their new marks are unset
      cases hsatisfied : a.satisfies clause with
      | true =>
          rw [Assignment.row_cons_of_satisfied value hfree hsatisfied]
          rfl
      | false =>
          rw [← Assignment.markClause_row hlow value hsatisfied]
          rfl

/-- Assigning a free variable puts it in front. -/
theorem assign_along {F : Formula} {a : Assignment} {v : Nat} (hlow : 1 ≤ v)
    (hhigh : v ≤ F.numVars) (hfree : a.value? v = none) (value : Bool) :
    (along F a).assign F v value = .ok (along F ((v, value) :: a)) := by
  have hvalues : (along F a).values.set (v - 1) (some value) =
      (along F ((v, value) :: a)).values :=
    set_values_along hlow (Assignment.value?_cons_self ..) fun w hw =>
      Assignment.value?_cons_of_ne hw ..
  have hmarks := markActive_along (F := F) hlow hfree value
  have hactive := activeWithout_frame (F := F) hlow hfree value
  rw [assign, value_along hlow hhigh, hfree]
  dsimp only
  rw [hvalues]
  simp only [along] at hmarks hactive ⊢
  rw [hmarks, hactive]
  rfl

/-- Unassigning the last variable takes it off. -/
theorem unassign_along {F : Formula} {a : Assignment} {v : Nat} {value : Bool} (hlow : 1 ≤ v)
    (hhigh : v ≤ F.numVars) (hfree : a.value? v = none) :
    (along F ((v, value) :: a)).unassign F v = .ok (along F a) := by
  have hvalues : (along F ((v, value) :: a)).values.set (v - 1) none = (along F a).values :=
    set_values_along hlow hfree fun w hw => (Assignment.value?_cons_of_ne hw ..).symm
  have hmarks : List.zipWith (wipeClause v) F.clauses (along F ((v, value) :: a)).marks =
      (along F a).marks := by
    simp only [along]
    rw [List.zipWith_map_right, List.zipWith_self]
    exact List.map_congr_left fun clause _ => Assignment.wipeClause_row value hfree clause
  rw [unassign, value_along hlow hhigh, Assignment.value?_cons_self]
  dsimp only
  rw [hvalues, hmarks]
  simp [along, Assignment.savedFrames]

end State

end TrailSat
