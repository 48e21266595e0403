import TrailSat.Proofs.State.Along
import TrailSat.Proofs.State.Pass
import TrailSat.Search.Board

/-!
# Cell by cell

A sheet is written cell by cell and in order, and where something is missing it is left half
written.  On the sheet of a state that is in shape (`State.InShape`) nothing is missing.  A row of
marks has a cell for every literal, so it is written to its end, whatever the literals are.  The
active clauses may be any of the formula's, in any order and repeated, and a pass over them ends
with the marks and the active clauses of the state (`eq_of_marked`, `without_ofFrame`).

So assigning and unassigning do to the sheet what they do to the state, and a request that is
refused leaves the sheet as it was (`assign_ofState`, `unassign_ofState`).
-/

namespace TrailSat

namespace Value

theorem isInt_int (m n : Int) : (Value.int m).isInt n = decide (m = n) := by
  have heq : (some (some (compare m n)) == some (some Ordering.eq)) = decide (m = n) := by
    rw [Bool.eq_iff_iff, beq_iff_eq, Option.some_inj, Option.some_inj, decide_eq_true_eq,
      Int.compare_eq_eq]
  exact heq

end Value

namespace State

/-- There is a mark for every literal, and the active clauses are among those of the formula. -/
structure InShape (F : Formula) (s : State) : Prop where
  shape_marks : s.marks.map List.length = F.clauses.map List.length
  active_lt : ∀ index ∈ s.active, index < F.numClauses

theorem inShape_along (F : Formula) (a : Assignment) : InShape F (along F a) := by
  constructor
  case shape_marks => simp [along, Assignment.row, Function.comp_def]
  case active_lt =>
    intro index hindex
    exact (Assignment.mem_frame.1 hindex).1

end State

namespace Sheet

open State

/-- The rows of cells for rows of marks. -/
def ofMarks (marks : List (List Mark)) : List (List Value) :=
  marks.map (List.map ofMark)

/-- The cells for a list of active clauses. -/
def ofFrame (frame : List Nat) : List Value :=
  frame.map fun (index : Nat) => .int index

/-- What a change of a state amounts to on its sheet, if an error leaves the sheet as it was. -/
def ofChange (s : State) : Except AssignError State → Except (Setback Sheet) Sheet
  | .ok t => .ok (ofState t)
  | .error e => .error ⟨e, ofState s⟩

@[simp] theorem ofState_values (s : State) : (ofState s).values = s.values.map ofEntry :=
  rfl

@[simp] theorem ofState_marks (s : State) : (ofState s).marks = ofMarks s.marks :=
  rfl

@[simp] theorem ofState_frames (s : State) :
    (ofState s).frames = ofFrame s.active :: s.saved.map ofFrame :=
  rfl

@[simp] theorem ofState_trail (s : State) :
    (ofState s).trail = s.trail.map fun (v : Nat) => .int v :=
  rfl

theorem value_ofState (F : Formula) (s : State) (v : Nat) :
    (ofState s).value F v = (s.value F v).map ofEntry := by
  unfold Sheet.value State.value
  split
  · simp only [ofState, List.getElem?_map]
    cases s.values[v - 1]? <;> rfl
  · rfl

/-! ## Writing a row -/

theorem overwrite_ofMark (mark? : Int → Option Mark) (clause : List Int) (row : List Mark) :
    overwrite mark? clause (row.map ofMark) =
      (List.zipWith (fun l mark => (mark? l).getD mark) clause row).map ofMark := by
  rw [overwrite, List.zipWith_map_right, List.map_zipWith]
  congr 1
  funext l mark
  cases mark? l <;> rfl

theorem overwrite_markWhen (made : Int) (clause : List Int) (row : List Mark) :
    overwrite (markWhen made) clause (row.map ofMark) =
      (markClause made clause row).map ofMark := by
  have hmark : (fun l mark => (markWhen made l).getD mark) = fun l (mark : Mark) =>
      if l = made then .satisfying else if l = -made then .falsified else mark := by
    funext l mark
    unfold markWhen
    split
    · rfl
    · split <;> rfl
  rw [overwrite_ofMark, hmark, markClause]

theorem overwrite_markWithout (v : Nat) (clause : List Int) (row : List Mark) :
    overwrite (markWithout v) clause (row.map ofMark) = (wipeClause v clause row).map ofMark := by
  have hmark : (fun l mark => (markWithout v l).getD mark) = fun l (mark : Mark) =>
      if l.natAbs = v then .unset else mark := by
    funext l mark
    unfold markWithout
    split <;> rfl
  rw [overwrite_ofMark, hmark, wipeClause]

/-! ## Going through the clauses -/

variable {F : Formula} {s : State} {made : Int} {active : List Nat}

theorem places_ofFrame (hactive : ∀ index ∈ active, index < F.numClauses) :
    places F (ofFrame active) = active := by
  induction active with
  | nil => rfl
  | cons index active ih =>
      obtain ⟨hindex, hrest⟩ := List.forall_mem_cons.1 hactive
      have hplace : (Value.int index).placeIn F.numClauses = .ok index :=
        Value.placeIn_of_lt hindex
      have hlater := ih hrest
      rw [places, ofFrame] at hlater ⊢
      rw [List.map_cons, List.filterMap_cons, hplace, hlater]
      rfl

theorem without_ofFrame (hactive : ∀ index ∈ active, index < F.numClauses) :
    without F made (ofFrame active) = ofFrame (activeWithout F active made) := by
  rw [without, ofFrame, List.filter_map, activeWithout, ofFrame]
  congr 1
  refine List.filter_congr fun index hindex => ?_
  have hselects : Selects F (.int index) index := Value.placeIn_of_lt (hactive index hindex)
  rw [Function.comp_apply, hselects.clauseOf]
  simp [Formula.clause]

/-- The marks are told by the rows that belong to clauses. -/
theorem eq_of_marked {marks : List (List Mark)} {after : List (List Value)}
    (hshape : marks.map List.length = F.clauses.map List.length)
    (h : Marked F made active (ofMarks marks) after) :
    after = ofMarks (markActive F active made marks) := by
  have hlength : marks.length = F.clauses.length := by
    simpa using congrArg List.length hshape
  apply List.ext_getElem?
  intro index
  cases hclause : F.clauses[index]? with
  | none =>
      -- there are as many rows as clauses, so both sides have ended
      have hend : F.clauses.length ≤ index := List.getElem?_eq_none_iff.1 hclause
      rw [List.getElem?_eq_none (by rw [h.length_eq]; exact hend), List.getElem?_eq_none]
      rwa [ofMarks, List.length_map, length_markActive hlength]
  | some clause =>
      obtain ⟨row, hrow, -⟩ := exists_row hshape hclause
      have hcells : (ofMarks marks)[index]? = some (row.map ofMark) := by
        rw [ofMarks, List.getElem?_map, hrow, Option.map_some]
      rw [h.row index clause _ hclause hcells, ofMarks, List.getElem?_map,
        getElem?_markActive hclause hrow, Option.map_some, overwrite_markWhen]
      simp only [List.contains_iff_mem, apply_ite (List.map ofMark)]

theorem ready_ofState (hs : s.InShape F) :
    Ready F (ofState s) (ofFrame s.active) where
  frames := rfl
  selects := by
    intro index hindex
    obtain ⟨place, hplace, rfl⟩ := List.mem_map.1 hindex
    exact ⟨place, Value.placeIn_of_lt (hs.active_lt place hplace)⟩
  shape := by simpa [ofMarks, Function.comp_def] using hs.shape_marks

/-- Going through all clauses wipes every row. -/
theorem wipe_ofMarks (v : Nat) {clauses : List (List Int)} {marks : List (List Mark)}
    (hshape : marks.map List.length = clauses.map List.length) :
    wipe v clauses (ofMarks marks) =
      (ofMarks (List.zipWith (wipeClause v) clauses marks), none) := by
  induction clauses generalizing marks with
  | nil =>
      obtain rfl := List.map_eq_nil_iff.1 hshape
      rfl
  | cons clause clauses ih =>
      cases marks with
      | nil => cases hshape
      | cons row marks =>
          obtain ⟨hrow, hrest⟩ := List.cons.inj hshape
          rw [ofMarks, List.map_cons, wipe, writeRow_of_length _ (by rwa [List.length_map]),
            overwrite_markWithout, ← ofMarks]
          dsimp only
          rw [if_pos rfl, ih hrest]
          rfl

/-! ## Assigning and unassigning -/

/-- **Assigning on the sheet of a state is assigning on the state.** -/
theorem assign_ofState (hs : s.InShape F) (v : Nat) (value : Bool) :
    (ofState s).assign F v value = ofChange s (s.assign F v value) := by
  cases hvalue : s.value F v with
  | error e =>
      rw [Sheet.assign, State.assign, value_ofState, hvalue]
      rfl
  | ok entry =>
      have hcell : (ofState s).value F v = .ok (ofEntry entry) := by
        rw [value_ofState, hvalue]
        rfl
      cases entry with
      | some old =>
          rw [Sheet.assign, State.assign, hcell, hvalue]
          dsimp only
          -- a cell with a value is not free, so both refuse
          rw [if_neg (by simp [isFree_ofEntry])]
          rfl
      | none =>
          obtain ⟨marks, hmarked, hassign⟩ := exists_assign (ready_ofState hs) hcell rfl value
          rw [places_ofFrame hs.active_lt] at hmarked
          have hmarks := eq_of_marked hs.shape_marks hmarked
          rw [hassign, hmarks, without_ofFrame hs.active_lt, State.assign, hvalue, ofState_values]
          dsimp only
          rw [← List.map_set]
          rfl

/-- **Unassigning on the sheet of a state is unassigning on the state.** -/
theorem unassign_ofState (hs : s.InShape F) (v : Nat) :
    (ofState s).unassign F v = ofChange s (s.unassign F v) := by
  rw [Sheet.unassign, State.unassign, value_ofState]
  cases hvalue : s.value F v with
  | error e => rfl
  | ok entry =>
      cases entry with
      | none => rfl
      | some old =>
          dsimp only [Except.map]
          rw [if_neg (by simp [isFree_ofEntry])]
          have hwiped := wipe_ofMarks v hs.shape_marks
          rw [ofState_frames, ofState_trail, ofState_marks, ofState_values, hwiped]
          cases hsaved : s.saved with
          | nil => rfl
          | cons frame saved =>
              cases htrail : s.trail with
              | nil => rfl
              | cons last trail =>
                  -- the cells have the same number of saved lists and the same last variable
                  simp only [List.map_cons, Value.isInt_int, decide_eq_true_eq, Int.natCast_inj]
                  by_cases hlast : last = v
                  · rw [if_pos hlast, if_pos hlast, ← List.map_set]
                    rfl
                  · rw [if_neg hlast, if_neg hlast]
                    rfl

end Sheet

end TrailSat
