import TrailSat.State.Sheet

/-!
# Reading a list while writing over it

When a variable is assigned on a sheet, a pass over the list of active clauses marks the literals of
the variable, and writes the clauses that stay active over the front of the same list.  It has two
places in the list: that of the next clause to be read, and that where the next clause to be kept
goes.  `Pass.Reached` is what holds between two clauses:

```text
0                  kept                 read                 end
|  kept, in order  |  read, and free    |  yet to be read,   |
|                  |  to be written on  |  as it was         |
```

Writing never gets ahead of reading, because a clause is read before it is written.  So every clause
is read once and as it was (`Pass.exists_step`), and in the end those in which the literal does not
occur stand at the front (`Pass.exists_run`).

A clause may stand on the list more than once.  Its row is then marked again, which changes nothing
(`overwrite_overwrite`), so the marks depend only on which clauses have been read: `Marked` tells
them from a list of clauses.
-/

namespace TrailSat

namespace Value

variable {index : Value} {length place selected : Nat}

theorem lt_of_place? {n : Int} (h : place? length n = some place) : place < length := by
  unfold place? at h
  generalize (if n < 0 then n + length else n) = m at h
  obtain ⟨⟨hlow, hhigh⟩, hplace⟩ := Option.ite_none_right_eq_some.1 h
  obtain rfl := Option.some.inj hplace
  omega

theorem lt_of_placeIn (h : index.placeIn length = .ok place) : place < length := by
  unfold placeIn at h
  split at h
  · cases h
  · split at h
    · next hplace =>
      cases h
      exact lt_of_place? hplace
    · cases h

theorem place?_natCast (length place : Nat) :
    place? length place = if place < length then some place else none := by
  have hlow : ¬(place : Int) < 0 := by omega
  simp [place?, hlow]

theorem placeIn_of_lt (h : place < length) : (Value.int place).placeIn length = .ok place := by
  simp only [placeIn, index?, place?_natCast, if_pos h]

theorem lt_of_placeIn_int (h : (Value.int place).placeIn length = .ok selected) :
    place < length := by
  by_cases hlt : place < length
  · exact hlt
  · simp only [placeIn, index?, place?_natCast, if_neg hlt] at h
    cases h

theorem select_of_placeIn {Item : Type} {row : List Item} {item : Item}
    (hplace : index.placeIn row.length = .ok place) (hitem : row[place]? = some item) :
    index.select row = .ok item := by
  rw [select, hplace]
  simp only [bind, Except.bind, hitem]

end Value

/-- In rows that have the lengths of the clauses, every clause has its row. -/
theorem exists_row {Cell : Type} {clauses : List (List Int)} {rows : List (List Cell)}
    {place : Nat} {clause : List Int}
    (hshape : rows.map List.length = clauses.map List.length)
    (hclause : clauses[place]? = some clause) :
    ∃ row, rows[place]? = some row ∧ row.length = clause.length := by
  have hlength := congrArg (·[place]?) hshape
  simp only [List.getElem?_map, hclause, Option.map_some] at hlength
  exact Option.map_eq_some_iff.1 hlength

theorem length_of_shape {Cell : Type} {clauses : List (List Int)} {rows : List (List Cell)}
    {place : Nat} {clause : List Int} {row : List Cell}
    (hshape : rows.map List.length = clauses.map List.length)
    (hclause : clauses[place]? = some clause) (hrow : rows[place]? = some row) :
    row.length = clause.length := by
  obtain ⟨row', hrow', hlength⟩ := exists_row hshape hclause
  obtain rfl := Option.some.inj (hrow.symm.trans hrow')
  exact hlength

namespace Sheet

variable {F : Formula} {made : Int} {clause : List Int} {row : List Value} {index : Value}
  {place : Nat}

/-! ## Writing a row -/

/-- The cells of a clause after the marks that its literals get have been written. -/
def overwrite (mark? : Int → Option Mark) (clause : List Int) (row : List Value) : List Value :=
  List.zipWith (fun l cell => ((mark? l).map ofMark).getD cell) clause row

/-- A row with a cell for every literal is written to its end. -/
theorem writeRow_of_length (mark? : Int → Option Mark) (h : row.length = clause.length) :
    writeRow mark? clause row = (overwrite mark? clause row, true) := by
  unfold overwrite
  induction clause generalizing row with
  | nil =>
      obtain rfl := List.eq_nil_of_length_eq_zero h
      rfl
  | cons l clause ih =>
      cases row with
      | nil => cases h
      | cons cell row => rw [writeRow, ih (Nat.succ.inj h), List.zipWith_cons_cons]

theorem length_overwrite (mark? : Int → Option Mark) (h : row.length = clause.length) :
    (overwrite mark? clause row).length = clause.length := by
  rw [overwrite, List.length_zipWith, h, Nat.min_self]

theorem getElem?_overwrite (mark? : Int → Option Mark) (h : row.length = clause.length)
    (position : Nat) :
    (overwrite mark? clause row)[position]? = row[position]?.map fun cell =>
      ((clause[position]?.bind mark?).map ofMark).getD cell := by
  rw [overwrite, List.getElem?_zipWith]
  by_cases hposition : position < clause.length
  · rw [List.getElem?_eq_getElem hposition, List.getElem?_eq_getElem (h ▸ hposition)]
    rfl
  · rw [List.getElem?_eq_none (Nat.not_lt.1 hposition),
      List.getElem?_eq_none (Nat.not_lt.1 (h ▸ hposition))]
    rfl

/-- Writing a row again changes nothing. -/
theorem overwrite_overwrite (mark? : Int → Option Mark) (clause : List Int) (row : List Value) :
    overwrite mark? clause (overwrite mark? clause row) = overwrite mark? clause row := by
  unfold overwrite
  induction clause generalizing row with
  | nil => rfl
  | cons l clause ih =>
      cases row with
      | nil => rfl
      | cons cell row =>
          simp only [List.zipWith_cons_cons, ih]
          cases mark? l <;> rfl

/-! ## The clauses on a list -/

/-- A value selects the clause with the given index. -/
def Selects (F : Formula) (index : Value) (place : Nat) : Prop :=
  index.placeIn F.numClauses = .ok place

/-- The indices of the clauses that the values on a list select. -/
def places (F : Formula) (frame : List Value) : List Nat :=
  frame.filterMap fun index => (index.placeIn F.numClauses).toOption

/-- The clause that a value selects; there are no literals if it selects none. -/
def clauseOf (F : Formula) (index : Value) : List Int :=
  (index.select F.clauses).toOption.getD []

/-- The values on a list that select a clause in which a literal does not occur. -/
def without (F : Formula) (made : Int) (frame : List Value) : List Value :=
  frame.filter fun index => !(clauseOf F index).contains made

theorem mem_places {frame : List Value} :
    place ∈ places F frame ↔ ∃ index ∈ frame, Selects F index place := by
  have hselects : ∀ index : Value,
      (index.placeIn F.numClauses).toOption = some place ↔ Selects F index place := by
    intro index
    unfold Selects
    cases index.placeIn F.numClauses <;> simp [Except.toOption]
  simp only [places, List.mem_filterMap, hselects]

theorem places_concat (frame : List Value) (h : Selects F index place) :
    places F (frame ++ [index]) = places F frame ++ [place] := by
  rw [Selects] at h
  simp [places, h, Except.toOption]

theorem Selects.getElem? (h : Selects F index place) :
    F.clauses[place]? = some (F.clause place) := by
  have hlt : place < F.clauses.length := Value.lt_of_placeIn h
  rw [Formula.clause, List.getD_eq_getElem?_getD, List.getElem?_eq_getElem hlt]
  rfl

theorem Selects.select (h : Selects F index place) :
    index.select F.clauses = .ok (F.clause place) :=
  Value.select_of_placeIn h h.getElem?

theorem Selects.clauseOf (h : Selects F index place) : clauseOf F index = F.clause place := by
  rw [Sheet.clauseOf, h.select]
  rfl

theorem without_concat (made : Int) (frame : List Value) (h : Selects F index place) :
    without F made (frame ++ [index]) =
      without F made frame ++ if (F.clause place).contains made then [] else [index] := by
  simp only [without, List.filter_append, List.filter_cons, List.filter_nil, h.clauseOf]
  cases (F.clause place).contains made <;> rfl

/-! ## Marking the rows of clauses -/

/-- How rows of cells have changed when a literal was made true in the clauses on a list. -/
structure Marked (F : Formula) (made : Int) (listed : List Nat) (before after : List (List Value)) :
    Prop where
  shape : after.map List.length = F.clauses.map List.length
  row : ∀ place clause row, F.clauses[place]? = some clause → before[place]? = some row →
    after[place]? = some (if place ∈ listed then overwrite (markWhen made) clause row else row)

variable {listed : List Nat} {before after : List (List Value)}

theorem Marked.refl (hshape : before.map List.length = F.clauses.map List.length) :
    Marked F made [] before before :=
  ⟨hshape, fun _ _ _ _ hrow => hrow⟩

theorem Marked.length_eq (h : Marked F made listed before after) :
    after.length = F.numClauses := by
  have hlength := congrArg List.length h.shape
  rwa [List.length_map, List.length_map] at hlength

/-- Writing the row of one more clause, which may be on the list already. -/
theorem Marked.set (h : Marked F made listed before after)
    (hclause : F.clauses[place]? = some clause) (hrow : after[place]? = some row) :
    Marked F made (listed ++ [place]) before
      (after.set place (overwrite (markWhen made) clause row)) := by
  obtain ⟨hplace, hat⟩ := List.getElem?_eq_some_iff.1 hrow
  constructor
  case shape =>
    have hlength := length_of_shape h.shape hclause hrow
    rw [List.map_set, length_overwrite _ hlength, ← hlength, ← hat, ← List.map_set,
      List.set_getElem_self, h.shape]
  case row =>
    intro other otherClause first hother hfirst
    have hafter := h.row other otherClause first hother hfirst
    by_cases hsame : place = other
    · subst hsame
      obtain rfl := Option.some.inj (hclause.symm.trans hother)
      obtain rfl := Option.some.inj (hrow.symm.trans hafter)
      rw [List.getElem?_set_self hplace, if_pos (List.mem_concat_self ..)]
      split
      · rw [overwrite_overwrite]
      · rfl
    · rw [List.getElem?_set_ne hsame, hafter]
      simp [Ne.symm hsame]

namespace Pass

/-! ## One clause after the other -/

/-- What a pass has reached when it has read the clauses `done` and has yet to read the clauses
`rest`. -/
structure Reached (F : Formula) (made : Int) (before : List (List Value)) (done rest : List Value)
    (pass : Pass) : Prop where
  /-- Writing is not ahead of reading. -/
  kept_le : pass.kept ≤ pass.read
  /-- The clauses that stay active stand at the front, in order. -/
  front : pass.frame.take pass.kept = without F made done
  /-- Nothing has been written over the clauses that are yet to be read. -/
  unread : pass.frame.drop pass.read = rest
  /-- The rows of the clauses that have been read are marked, and no others. -/
  marked : Marked F made (places F done) before pass.marks

variable {done rest : List Value} {pass : Pass}

theorem reached_start (made : Int) (frame : List Value)
    (hshape : before.map List.length = F.clauses.map List.length) :
    Reached F made before [] frame (start frame before) where
  kept_le := Nat.le_refl _
  front := rfl
  unread := rfl
  marked := .refl hshape

theorem Reached.next (h : Reached F made before done (index :: rest) pass) :
    pass.frame[pass.read]? = some index := by
  rw [← List.head?_drop, h.unread, List.head?_cons]

/-- What a step does to a list whose next clause is one of the formula. -/
theorem Reached.step_eq (h : Reached F made before done (index :: rest) pass)
    (hindex : Selects F index place) (hrow : pass.marks[place]? = some row) :
    pass.step F made =
      let marked := { pass with
        read := pass.read + 1
        marks := pass.marks.set place (overwrite (markWhen made) (F.clause place) row) }
      .ok (if (F.clause place).contains made then marked else marked.keep index) := by
  have hlength := length_of_shape h.marked.shape hindex.getElem? hrow
  have hplace : index.placeIn pass.marks.length = .ok place := by
    rw [h.marked.length_eq]
    exact hindex
  have hcells : pass.marks.getD place [] = row := by
    rw [List.getD_eq_getElem?_getD, hrow]
    rfl
  rw [step, h.next]
  dsimp only
  rw [hplace, hindex.select]
  dsimp only
  rw [hcells, writeRow_of_length _ hlength]
  rfl

/-- Behind the next clause stand those that are read after it. -/
theorem Reached.drop_succ (h : Reached F made before done (index :: rest) pass) :
    pass.frame.drop (pass.read + 1) = rest := by
  rw [← List.tail_drop, h.unread, List.tail_cons]

/-- **A step deals with the next clause.** -/
theorem exists_step (h : Reached F made before done (index :: rest) pass)
    (hindex : Selects F index place) :
    ∃ next, pass.step F made = .ok next ∧ Reached F made before (done ++ [index]) rest next := by
  obtain ⟨row, hrow, -⟩ := exists_row h.marked.shape hindex.getElem?
  have hmarked := h.marked.set hindex.getElem? hrow
  rw [← places_concat done hindex] at hmarked
  have hkept := without_concat made done hindex
  refine ⟨_, h.step_eq hindex hrow, ?_⟩
  cases hcontains : (F.clause place).contains made with
  | true =>
      -- the clause is skipped, and the list stays as it is
      rw [hcontains, if_pos rfl, List.append_nil] at hkept
      exact ⟨Nat.le_succ_of_le h.kept_le, h.front.trans hkept.symm, h.drop_succ, hmarked⟩
  | false =>
      -- the clause is written where an earlier one, or it itself, has been read
      rw [hcontains, if_neg Bool.false_ne_true] at hkept
      have hlt : pass.kept < pass.frame.length :=
        Nat.lt_of_le_of_lt h.kept_le (List.getElem?_eq_some_iff.1 h.next).1
      constructor
      case kept_le => exact Nat.succ_le_succ h.kept_le
      case front =>
        have hfront : (pass.frame.set pass.kept index).take (pass.kept + 1) =
            pass.frame.take pass.kept ++ [index] := by
          rw [List.take_add_one, List.take_set, List.getElem?_set_self hlt,
            List.set_eq_of_length_le (List.length_take_le ..)]
          rfl
        exact hfront.trans (by rw [h.front, hkept])
      case unread =>
        have hbehind : pass.kept < pass.read + 1 := Nat.lt_succ_of_le h.kept_le
        exact (List.drop_set_of_lt hbehind).trans h.drop_succ
      case marked => exact hmarked

/-- **A run deals with all clauses that are left.** -/
theorem exists_run (h : Reached F made before done rest pass)
    (hrest : ∀ index ∈ rest, ∃ place, Selects F index place) :
    ∃ last, pass.run F made rest.length = .ok last ∧
      Reached F made before (done ++ rest) [] last := by
  induction rest generalizing done pass with
  | nil => exact ⟨pass, rfl, by rwa [List.append_nil]⟩
  | cons index rest ih =>
      obtain ⟨⟨place, hindex⟩, hlater⟩ := List.forall_mem_cons.1 hrest
      obtain ⟨next, hstep, hnext⟩ := exists_step h hindex
      obtain ⟨last, hrun, hlast⟩ := ih hnext hlater
      refine ⟨last, ?_, by rwa [List.append_assoc] at hlast⟩
      rw [List.length_cons, run, hstep]
      exact hrun

end Pass

/-! ## Assigning -/

/-- The list of active clauses can be gone through: its values select clauses of the formula, and
every clause has a row with a cell for each of its literals. -/
structure Ready (F : Formula) (sheet : Sheet) (top : List Value) : Prop where
  frames : sheet.frames.head? = some top
  selects : ∀ index ∈ top, ∃ place, Selects F index place
  shape : sheet.marks.map List.length = F.clauses.map List.length

/-- **Assigning a free variable marks the active clauses and keeps those in which no literal became
true.** -/
theorem exists_assign {sheet : Sheet} {top : List Value} {v : Nat} {cell : Value}
    (hready : Ready F sheet top) (hcell : sheet.value F v = .ok cell) (hfree : isFree cell = true)
    (value : Bool) :
    ∃ marks, Marked F (State.literalOf v value) (places F top) sheet.marks marks ∧
      sheet.assign F v value = .ok {
        values := sheet.values.set (v - 1) (ofEntry (some value))
        marks := marks
        frames := without F (State.literalOf v value) top :: sheet.frames
        trail := .int v :: sheet.trail } := by
  obtain ⟨older, hframes⟩ := List.head?_eq_some_iff.1 hready.frames
  have hstart := Pass.reached_start (State.literalOf v value) top hready.shape
  obtain ⟨last, hrun, hlast⟩ := Pass.exists_run hstart hready.selects
  have hactive : last.frame.take last.kept = without F (State.literalOf v value) top :=
    hlast.front
  refine ⟨last.marks, hlast.marked, ?_⟩
  rw [assign, hcell]
  dsimp only
  rw [if_pos hfree, hframes]
  dsimp only
  rw [hrun]
  dsimp only
  rw [hactive]

end Sheet

end TrailSat
