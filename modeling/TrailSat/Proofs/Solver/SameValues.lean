import TrailSat.Proofs.Solver.SameClauses
import TrailSat.Proofs.State.Truth

/-!
# Only the values matter

Variables can be given the same values in different orders, and the states that come of it are not
the same: the trails and the saved frames differ, and so do the marks of satisfied clauses, because
a clause is not marked any more once it is satisfied.

Nothing of this can be observed.  Assignments with the same values have the same frame
(`frame_congr`), and a clause in the frame lacks no marks, so that its row is determined by the
values too (`row_congr`).  All the queries answer alike, and they still do so after the same
branches have been opened in both states.  Two searches from there are in lockstep.
-/

namespace TrailSat

open Search

namespace Assignment

variable {F : Formula} {a b : Assignment}

/-! ## Assignments with the same values -/

theorem value?_append_congr (h : a.value? = b.value?) (later : Assignment) :
    value? (later ++ a) = value? (later ++ b) := by
  funext v
  rw [value?_append, value?_append, h]

theorem holds_congr (h : a.value? = b.value?) : a.holds = b.holds := by
  funext l
  rw [holds, holds, h]

theorem refutes_congr (h : a.value? = b.value?) : a.refutes = b.refutes := by
  funext l
  rw [refutes, refutes, h]

theorem satisfies_congr (h : a.value? = b.value?) : a.satisfies = b.satisfies := by
  funext clause
  rw [satisfies, satisfies, holds_congr h]

theorem falsifies_congr (h : a.value? = b.value?) : a.falsifies = b.falsifies := by
  funext clause
  rw [falsifies, falsifies, refutes_congr h]

theorem firstFree?_congr (h : a.value? = b.value?) : a.firstFree? F = b.firstFree? F := by
  rw [firstFree?, firstFree?, h]

theorem frame_congr (h : a.value? = b.value?) : a.frame F = b.frame F := by
  rw [frame, frame, satisfies_congr h]

/-- In a clause that is not satisfied the marks are those of the false literals. -/
theorem mark_of_open (ha : a.Proper F) {clause : List Int} (hopen : a.satisfies clause = false)
    {l : Int} (hmem : l ∈ clause) (hl : l ≠ 0) :
    a.mark clause l = if a.refutes l then .falsified else .unset := by
  by_cases hfree : a.value? l.natAbs = none
  · rw [mark_of_free clause hfree, refutes, hfree]
    rfl
  · rcases holds_or_refutes hl hfree with htrue | hfalse
    · -- a true literal would satisfy the clause
      exact absurd htrue (List.any_eq_false.1 hopen l hmem)
    · rw [mark_eq_of_refutes ha hopen hl hfalse, if_pos hfalse]

theorem row_congr (ha : a.Proper F) (hb : b.Proper F) (h : a.value? = b.value?)
    {clause : List Int} (hopen : a.satisfies clause = false) (hne : ∀ l ∈ clause, l ≠ 0) :
    a.row clause = b.row clause := by
  have hopen' : b.satisfies clause = false := by rwa [← satisfies_congr h]
  refine List.map_congr_left fun l hl => ?_
  rw [mark_of_open ha hopen hl (hne l hl), mark_of_open hb hopen' hl (hne l hl), refutes_congr h]

theorem alike_of_value?_eq (h : a.value? = b.value?) : Alike F F a b where
  conflict_eq := by rw [falsifies_congr h]
  solved_eq := by rw [satisfies_congr h]
  free_eq := firstFree?_congr h

end Assignment

namespace State

variable {F : Formula} {s t : State} {a b : Assignment}

theorem value?_eq_of_values_eq (ha : a.Proper F) (hb : b.Proper F)
    (h : (along F a).values = (along F b).values) : a.value? = b.value? := by
  have hvalue (v : Nat) : (along F a).value F v = (along F b).value F v := by
    rw [value, value, h]
  funext v
  refine Option.ext fun entry => ?_
  rw [← value_along_eq_some ha, ← value_along_eq_some hb, hvalue]

theorem values_eq_of_value?_eq (h : a.value? = b.value?) :
    (along F a).values = (along F b).values := by
  simp only [along, h]

/-- Two states that cannot be told apart by asking them about the formula, nor by the marks of the
active clauses. -/
structure SameAnswers (F : Formula) (s t : State) : Prop where
  active_eq : s.active = t.active
  isSolved_eq : s.isSolved = t.isSolved
  hasConflict_eq : s.hasConflict = t.hasConflict
  isConflict_eq : ∀ index, index < F.numClauses → s.isConflict index = t.isConflict index
  firstFree?_eq : s.firstFree? = t.firstFree?
  literals_eq : s.literals = t.literals
  /-- Every active clause has its marks, and they are the same in both states. -/
  marks_eq : ∀ index ∈ s.active, ∃ row, s.marks[index]? = some row ∧ t.marks[index]? = some row

theorem sameAnswers_of_values_eq (hs : Reachable F s) (ht : Reachable F t)
    (hvalues : s.values = t.values) : SameAnswers F s t := by
  obtain ⟨a, ha, rfl⟩ := reachable_iff_along.1 hs
  obtain ⟨b, hb, rfl⟩ := reachable_iff_along.1 ht
  have h : a.value? = b.value? := value?_eq_of_values_eq ha hb hvalues
  constructor
  case active_eq => exact Assignment.frame_congr h
  case isSolved_eq => rw [isSolved_along, isSolved_along, Assignment.satisfies_congr h]
  case hasConflict_eq =>
    rw [hasConflict_along ha, hasConflict_along hb, Assignment.falsifies_congr h]
  case isConflict_eq =>
    intro index hindex
    rw [isConflict_along ha hindex, isConflict_along hb hindex, Assignment.falsifies_congr h]
  case firstFree?_eq => rw [firstFree?, firstFree?, hvalues]
  case literals_eq => rw [literals, literals, hvalues]
  case marks_eq =>
    intro index hactive
    obtain ⟨hindex, -⟩ := Assignment.mem_frame.1 hactive
    have hclause : F.clauses[index]? = some F.clauses[index] := List.getElem?_eq_getElem hindex
    -- an active clause is not satisfied, so its row depends on the values only
    have hopen := (Assignment.mem_frame_of_getElem? hclause).1 hactive
    have hrow : a.row F.clauses[index] = b.row F.clauses[index] :=
      Assignment.row_congr ha hb h hopen fun l hl =>
        (F.literal_inRange (List.getElem_mem hindex) hl).1
    refine ⟨a.row F.clauses[index], ?_, ?_⟩
    · rw [along, List.getElem?_map, hclause, Option.map_some]
    · rw [along, List.getElem?_map, hclause, Option.map_some, hrow]

end State

/-! ## Searching from states with the same values -/

namespace Solver

variable {F : Formula} {s t : State} {a b : Assignment}

/-- A solver takes over the same from two searches that ended at the same point. -/
theorem solver_finish_eq {settings : Settings} {p q : Position State}
    (h : Lockstep F F settings settings.firstPhase a b p q)
    (hvalues : p.state.values = q.state.values) (solver : Solver) (verdict : Verdict) :
    (solver.finish (p, .ok verdict)).solver = (solver.finish (q, .ok verdict)).solver := by
  simp only [finish, absorb, h.counters_eq, h.events_eq_self]
  cases verdict with
  | sat => simp only [conclude, Board.entries, hvalues]
  | unsat => rfl
  | undecided => rfl

theorem solve_eq_of_value?_eq (ha : a.Proper F) (hb : b.Proper F) (h : a.value? = b.value?)
    (settings : Settings) (solver : Solver) :
    let left := solver.solve F settings (State.along F a)
    let right := solver.solve F settings (State.along F b)
    ∃ verdict, left.result = .ok verdict ∧ right.result = .ok verdict ∧
      left.solver = right.solver ∧ left.state.values = right.state.values := by
  intro left right
  have halike : ∀ branches, Assignment.Proper F (taken settings.firstPhase branches ++ a) →
      Alike F F (taken settings.firstPhase branches ++ a)
        (taken settings.firstPhase branches ++ b) :=
    fun _ _ => Assignment.alike_of_value?_eq (Assignment.value?_append_congr h _)
  obtain ⟨p, q, verdict, (hleft : left = _), (hright : right = _), hend⟩ :=
    exists_lockstep halike ha hb solver
  have hvalues : p.state.values = q.state.values := by
    rw [hend.left.state_eq, hend.right.state_eq, hend.branches_eq]
    exact State.values_eq_of_value?_eq (Assignment.value?_append_congr h _)
  rw [hleft, hright]
  exact ⟨verdict, rfl, rfl, solver_finish_eq hend hvalues _ verdict, hvalues⟩

/-- **The order in which variables were assigned does not matter.**  Reachable states with the same
values answer alike, and the same solver comes from both to the same verdict, with the same model,
the same events and the same counters. -/
theorem agree_of_values_eq (hs : State.Reachable F s) (ht : State.Reachable F t)
    (hvalues : s.values = t.values) :
    State.SameAnswers F s t ∧ ∀ (settings : Settings) (solver : Solver),
      let left := solver.solve F settings s
      let right := solver.solve F settings t
      ∃ verdict, left.result = .ok verdict ∧ right.result = .ok verdict ∧
        left.solver = right.solver ∧ left.state.values = right.state.values := by
  refine ⟨State.sameAnswers_of_values_eq hs ht hvalues, fun settings solver => ?_⟩
  obtain ⟨a, ha, rfl⟩ := State.reachable_iff_along.1 hs
  obtain ⟨b, hb, rfl⟩ := State.reachable_iff_along.1 ht
  exact solve_eq_of_value?_eq ha hb (State.value?_eq_of_values_eq ha hb hvalues) settings solver

end Solver

/-! ## An example

In the plait the second variable, if true, and the fourth one, if false, both satisfy the last
clause.  The one that is assigned first is marked there. -/

/-- The second variable of the plait is true, then the fourth one false. -/
def State.plaited : State where
  values := [none, some true, none, some false]
  marks := [[.unset, .falsified], [.unset, .satisfying], [.satisfying, .unset]]
  active := [0]
  saved := [[0], [0, 1, 2]]
  trail := [4, 2]

/-- The fourth variable of the plait is false, then the second one true. -/
def State.plaitedBackwards : State where
  values := [none, some true, none, some false]
  marks := [[.unset, .falsified], [.unset, .satisfying], [.unset, .satisfying]]
  active := [0]
  saved := [[0, 1], [0, 1, 2]]
  trail := [2, 4]

theorem State.reachable_plaited : Reachable Formula.plait plaited :=
  ⟨[.set (.int 2) (.bool true), .set (.int 4) (.bool false)], by decide⟩

theorem State.reachable_plaitedBackwards : Reachable Formula.plait plaitedBackwards :=
  ⟨[.set (.int 4) (.bool false), .set (.int 2) (.bool true)], by decide⟩

/-- Searched from either state, the first variable is decided, fails and is flipped. -/
theorem Solver.agree_of_values_eq_of_plaited :
    State.Reachable Formula.plait State.plaited ∧
      State.Reachable Formula.plait State.plaitedBackwards ∧
      State.plaited.values = State.plaitedBackwards.values ∧
      State.SameAnswers Formula.plait State.plaited State.plaitedBackwards ∧
      ∃ verdict,
        (solve Formula.plait {} State.plaitedBackwards {}).result = .ok verdict ∧
        (solve Formula.plait {} State.plaitedBackwards {}).solver =
          { solves := 1
            counters := ⟨1, 1, 1, 1⟩
            events := [⟨.decision, 1, 1⟩, ⟨.flip, -1, 1⟩]
            model := [some false, some true, none, some false] } := by
  have hvalues : State.plaited.values = State.plaitedBackwards.values := rfl
  obtain ⟨hanswers, hsearch⟩ :=
    agree_of_values_eq State.reachable_plaited State.reachable_plaitedBackwards hvalues
  obtain ⟨verdict, -, hresult, hsolver, -⟩ := hsearch {} {}
  refine ⟨State.reachable_plaited, State.reachable_plaitedBackwards, hvalues, hanswers, verdict,
    hresult, ?_⟩
  rw [← hsolver]
  decide +kernel

end TrailSat
