import TrailSat.Proofs.State.Cells
import TrailSat.Proofs.State.Reachable
import TrailSat.State.Ledger

/-!
# What an assignment changes

`Sheet.Compacts` lists what is different after a variable has been assigned: the variable has its
value and is on the trail, a new list of active clauses lies on the former ones, and some marks have
been made.  The new list is the last one without the clauses in which a literal became true, in the
same order and with the same repetitions.  Marks are made in the clauses on the last list only, but
there at all literals of the variable, also behind the first true one.

Nothing is asked of a ledger but that the last list of active clauses can be gone through
(`Sheet.Ready`).  It need not be one that assignments lead to: the list may be in any order and name
clauses twice, or clauses that are satisfied, and the marks may be anything.  A ledger that is a
state changes as its sheet does (`exists_assign_cells`), so that both kinds of ledger have the same
proof.
-/

namespace TrailSat

namespace Sheet

/-! ## One cell of the marks -/

section

variable {F : Formula} {made : Int} {listed : List Nat} {before after : List (List Value)}
  {place position : Nat}

/-- The cell for the literal at a position of a clause. -/
def cellAt (marks : List (List Value)) (place position : Nat) : Option Value :=
  marks[place]?.bind fun row => row[position]?

/-- The mark that is made at a position of a clause when a literal is made true in the clauses on a
list. -/
def markMade (F : Formula) (made : Int) (listed : List Nat) (place position : Nat) : Option Mark :=
  if place ∈ listed then (F.clause place)[position]?.bind (markWhen made) else none

theorem markWhen_self (made : Int) : markWhen made made = some .satisfying :=
  if_pos rfl

theorem markWhen_neg (h : made ≠ 0) : markWhen made (-made) = some .falsified := by
  rw [markWhen, if_neg (by omega), if_pos rfl]

theorem markWhen_of_ne {l : Int} (htrue : l ≠ made) (hfalse : l ≠ -made) :
    markWhen made l = none := by
  rw [markWhen, if_neg htrue, if_neg hfalse]

theorem exists_cellAt {clause : List Int} {l : Int}
    (hshape : before.map List.length = F.clauses.map List.length)
    (hclause : F.clauses[place]? = some clause) (hl : clause[position]? = some l) :
    ∃ cell, cellAt before place position = some cell := by
  obtain ⟨row, hrow, hlength⟩ := exists_row hshape hclause
  have hposition : position < row.length := by
    rw [hlength]
    exact (List.getElem?_eq_some_iff.1 hl).1
  exact ⟨row[position], by rw [cellAt, hrow, Option.bind_some, List.getElem?_eq_getElem hposition]⟩

/-- A cell holds the mark that was made there, or else what it held before. -/
theorem cellAt_of_marked (h : Marked F made listed before after)
    (hshape : before.map List.length = F.clauses.map List.length) (place position : Nat) :
    cellAt after place position = (cellAt before place position).map fun cell =>
      ((markMade F made listed place position).map ofMark).getD cell := by
  cases hclause : F.clauses[place]? with
  | none =>
      -- behind the last clause there are no cells, before and after
      have hlength : before.length = after.length := by
        simpa using congrArg List.length (hshape.trans h.shape.symm)
      have hend : after.length ≤ place := by
        rw [h.length_eq]
        exact List.getElem?_eq_none_iff.1 hclause
      rw [cellAt, cellAt, List.getElem?_eq_none hend, List.getElem?_eq_none (hlength ▸ hend)]
      rfl
  | some clause =>
      obtain ⟨row, hrow, hlength⟩ := exists_row hshape hclause
      have hat : F.clause place = clause := by simp [Formula.clause, hclause]
      rw [cellAt, cellAt, h.row place clause row hclause hrow, hrow, Option.bind_some,
        Option.bind_some, markMade, hat]
      split
      · rw [getElem?_overwrite _ hlength]
      · exact (Option.map_id' ..).symm

/-- A literal in a listed clause has the mark that it was to get. -/
theorem cellAt_of_markWhen {top : List Value} {l : Int} {mark : Mark}
    (h : Marked F made (places F top) before after)
    (hshape : before.map List.length = F.clauses.map List.length)
    (hplace : place ∈ places F top) (hl : (F.clause place)[position]? = some l)
    (hmark : markWhen made l = some mark) :
    cellAt after place position = some (ofMark mark) := by
  obtain ⟨index, -, hindex⟩ := mem_places.1 hplace
  obtain ⟨old, hold⟩ := exists_cellAt hshape hindex.getElem? hl
  rw [cellAt_of_marked h hshape, hold, markMade, if_pos hplace, hl, Option.bind_some, hmark]
  rfl

theorem markMade_eq_none
    (h : ¬(place ∈ listed ∧ ((F.clause place)[position]? = some made ∨
      (F.clause place)[position]? = some (-made)))) :
    markMade F made listed place position = none := by
  unfold markMade
  split
  · next hplace =>
    cases hl : (F.clause place)[position]? with
    | none => rfl
    | some l =>
        rw [hl, Option.some.injEq, Option.some.injEq] at h
        exact markWhen_of_ne (fun heq => h ⟨hplace, .inl heq⟩) fun heq => h ⟨hplace, .inr heq⟩
  · rfl

end

/-! ## What is different on a sheet -/

variable {F : Formula} {sheet : Sheet} {top : List Value} {v : Nat} {value : Bool} {cell : Value}

/-- How a sheet has changed when a variable was assigned while `top` was the list of active
clauses. -/
structure Compacts (F : Formula) (v : Nat) (value : Bool) (top : List Value)
    (before after : Sheet) : Prop where
  values : after.values = before.values.set (v - 1) (ofEntry (some value))
  trail : after.trail = .int v :: before.trail
  /-- The clauses in which no literal became true are active, in the same order and as often as
  before, and all former lists are kept. -/
  frames : after.frames = without F (State.literalOf v value) top :: before.frames
  shape : after.marks.map List.length = before.marks.map List.length
  /-- In the clauses that were active, every occurrence of the true literal is marked. -/
  cell_of_true : ∀ place ∈ places F top, ∀ position,
    (F.clause place)[position]? = some (State.literalOf v value) →
      cellAt after.marks place position = some (ofMark .satisfying)
  /-- In the clauses that were active, every occurrence of the false literal is marked. -/
  cell_of_false : ∀ place ∈ places F top, ∀ position,
    (F.clause place)[position]? = some (-State.literalOf v value) →
      cellAt after.marks place position = some (ofMark .falsified)
  /-- Every other cell holds what it held. -/
  cell_of_other : ∀ place position,
    ¬(place ∈ places F top ∧
      ((F.clause place)[position]? = some (State.literalOf v value) ∨
        (F.clause place)[position]? = some (-State.literalOf v value))) →
      cellAt after.marks place position = cellAt before.marks place position

theorem inRange_of_value (h : sheet.value F v = .ok cell) : 1 ≤ v ∧ v ≤ F.numVars := by
  unfold value at h
  split at h
  · assumption
  · cases h

/-- **Assigning a free variable succeeds and changes the sheet as listed.** -/
theorem exists_compacts (hready : Ready F sheet top) (hcell : sheet.value F v = .ok cell)
    (hfree : isFree cell = true) (value : Bool) :
    ∃ after, sheet.assign F v value = .ok after ∧ Compacts F v value top sheet after := by
  obtain ⟨marks, hmarked, hassign⟩ := exists_assign hready hcell hfree value
  -- zero would be its own opposite, and the two marks could not be told apart
  have hne : State.literalOf v value ≠ 0 := by
    have hlow := (inRange_of_value hcell).1
    rw [← Int.natAbs_ne_zero, Assignment.natAbs_literalOf]
    omega
  refine ⟨_, hassign, ?_⟩
  constructor
  case values => rfl
  case trail => rfl
  case frames => rfl
  case shape => exact hmarked.shape.trans hready.shape.symm
  case cell_of_true =>
    intro place hplace position hl
    exact cellAt_of_markWhen hmarked hready.shape hplace hl (markWhen_self _)
  case cell_of_false =>
    intro place hplace position hl
    exact cellAt_of_markWhen hmarked hready.shape hplace hl (markWhen_neg hne)
  case cell_of_other =>
    intro place position hother
    rw [cellAt_of_marked hmarked hready.shape, markMade_eq_none hother]
    exact Option.map_id' ..

end Sheet

/-! ## What is different on a ledger -/

namespace Ledger

open Sheet

variable {F : Formula} {ledger : Ledger} {top : List Value} {v : Nat} {cell : Value}

theorem inShape_of_ready {s : State} (h : Ready F (ofState s) top) : s.InShape F := by
  obtain rfl : ofFrame s.active = top := Option.some.inj h.frames
  constructor
  case shape_marks => simpa [ofMarks, Function.comp_def] using h.shape
  case active_lt =>
    intro index hindex
    obtain ⟨place, hplace⟩ := h.selects (.int index) (List.mem_map_of_mem hindex)
    exact Value.lt_of_placeIn_int hplace

/-- Assigning on a ledger is assigning on its sheet. -/
theorem exists_assign_cells {after : Sheet} {value : Bool} (hready : Ready F ledger.cells top)
    (hassign : ledger.cells.assign F v value = .ok after) :
    ∃ assigned, ledger.assign F v value = .ok assigned ∧ assigned.cells = after := by
  cases ledger with
  | irregular sheet =>
      have hsheet : sheet.assign F v value = .ok after := hassign
      exact ⟨.irregular after, by rw [assign, hsheet]; rfl, rfl⟩
  | regular s =>
      have hstate : Sheet.ofChange s (s.assign F v value) = .ok after := by
        rw [← assign_ofState (inShape_of_ready hready)]
        exact hassign
      cases hchange : s.assign F v value with
      | error e =>
          rw [hchange] at hstate
          cases hstate
      | ok t =>
          rw [hchange] at hstate
          exact ⟨.regular t, by rw [assign, hchange]; rfl, Except.ok.inj hstate⟩

theorem setVar_eq_assign {asked value : Value} (h : State.readVar F asked = .ok v) :
    ledger.setVar F asked value = ledger.assign F v value.isTruthy := by
  cases ledger with
  | regular s =>
      rw [setVar, State.setVar_eq_assign h]
      rfl
  | irregular sheet =>
      rw [setVar, Sheet.setVar, h]
      rfl

/-- **Assigning a free variable keeps the active clauses in which no literal became true.**  They
stay in order and as often as they were listed, all former lists are kept, the variable's literals
are marked in every clause that was active, and no other cell is touched.  Writing the cells of the
ledger one after the other leads to the same cells. -/
theorem compacts_of_ready (hready : Ready F ledger.cells top)
    (hcell : ledger.cells.value F v = .ok cell) (hfree : isFree cell = true) (value : Value) :
    ∃ after, ledger.setVar F (.int v) value = .ok after ∧
      ledger.cells.setVar F (.int v) value = .ok after.cells ∧
      Compacts F v value.isTruthy top ledger.cells after.cells := by
  obtain ⟨sheet, hassign, hcompacts⟩ := exists_compacts hready hcell hfree value.isTruthy
  obtain ⟨after, hafter, rfl⟩ := exists_assign_cells hready hassign
  have hread : State.readVar F (.int v) = .ok v := by
    obtain ⟨hlow, hhigh⟩ := inRange_of_value hcell
    exact State.readVar_int hlow hhigh
  refine ⟨after, ?_, ?_, hcompacts⟩
  · rw [setVar_eq_assign hread, hafter]
  · rw [Sheet.setVar, hread]
    exact hassign

/-- A list of active clauses that is out of order, leaves out the last clause, and names the third
one twice and the second one in three ways. -/
def scrambledFrame : List Value :=
  [.int 2, .int 1, .int 2, .int 0, .bool true, .int (-3)]

/-- A ledger that is no state. -/
def scrambled : Ledger := .irregular {
  values := [.int 0, .bool false, .int 2]
  marks := [[.int 0, .int 7], [.int 2, .int 0, .int 1], [.int 0, .null, .int 0], [.int 0, .int 0]]
  frames := [scrambledFrame, [.int 5]]
  trail := [.int 1] }

/-- The third clause has the true literal twice, with another one in between; the last clause has it
too, but was not active. -/
theorem compacts_of_ready_scrambled :
    Ready Formula.knot scrambled.cells scrambledFrame ∧
      scrambled.cells.value Formula.knot 2 = .ok (.bool false) ∧ isFree (.bool false) = true ∧
      ∃ after, scrambled.setVar Formula.knot (.int 2) (.int 1) = .ok after ∧
        scrambled.cells.setVar Formula.knot (.int 2) (.int 1) = .ok after.cells ∧
        Compacts Formula.knot 2 true scrambledFrame scrambled.cells after.cells ∧
        after.cells.frames = [[.int 1, .int 0, .bool true, .int (-3)], scrambledFrame, [.int 5]] ∧
        after.cells.marks = [[.int 0, .int 7], [.int 1, .int 1, .int 1],
          [.int 2, .null, .int 2], [.int 0, .int 0]] := by
  have hready : Ready Formula.knot scrambled.cells scrambledFrame := by
    constructor
    case frames => rfl
    case selects =>
      simp only [scrambledFrame, List.forall_mem_cons]
      exact ⟨⟨2, rfl⟩, ⟨1, rfl⟩, ⟨2, rfl⟩, ⟨0, rfl⟩, ⟨1, rfl⟩, ⟨1, rfl⟩, nofun⟩
    case shape => rfl
  have hcell : scrambled.cells.value Formula.knot 2 = .ok (.bool false) := rfl
  have hfree : isFree (.bool false) = true := rfl
  obtain ⟨after, hset, hcells, hcompacts⟩ := compacts_of_ready hready hcell hfree (.int 1)
  have hwritten : scrambled.cells.setVar Formula.knot (.int 2) (.int 1) = .ok {
      values := [.int 0, .int 2, .int 2]
      marks := [[.int 0, .int 7], [.int 1, .int 1, .int 1], [.int 2, .null, .int 2],
        [.int 0, .int 0]]
      frames := [[.int 1, .int 0, .bool true, .int (-3)], scrambledFrame, [.int 5]]
      trail := [.int 2, .int 1] } := rfl
  have hafter := Except.ok.inj (hcells.symm.trans hwritten)
  exact ⟨hready, hcell, hfree, after, hset, hcells, hcompacts, congrArg frames hafter,
    congrArg marks hafter⟩

end Ledger

end TrailSat
