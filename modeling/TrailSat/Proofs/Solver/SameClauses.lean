import TrailSat.Proofs.Search.Lockstep
import TrailSat.Proofs.Solver.Verdict

/-!
# Only the sets of literals matter

A formula lists its clauses and their literals in some order and may repeat both, and the marks and
frames of a state are laid out accordingly.  A search does not depend on any of it: on two formulas
over the same variables whose clauses have the same literals (`Formula.SameClauses`) a solver
answers alike and does the same on the way.

Whether a clause is satisfied or falsified depends on the set of its literals, so the same
assignment leads to the same answers on both formulas (`alike_of_sameClauses`), and the two searches
are in lockstep.
-/

namespace TrailSat

open Search

/-! ## Formulas with the same clauses -/

/-- Two clauses with the same literals, in whatever order and however often. -/
def SameLiterals (c d : List Int) : Prop :=
  c ⊆ d ∧ d ⊆ c

instance (c d : List Int) : Decidable (SameLiterals c d) :=
  inferInstanceAs (Decidable (_ ∧ _))

/-- Every clause of one formula has the same literals as some clause of the other one. -/
def Formula.SameClauses (F G : Formula) : Prop :=
  (∀ c ∈ F.clauses, ∃ d ∈ G.clauses, SameLiterals c d) ∧
    ∀ d ∈ G.clauses, ∃ c ∈ F.clauses, SameLiterals c d

instance (F G : Formula) : Decidable (F.SameClauses G) :=
  inferInstanceAs (Decidable (_ ∧ _))

/-- Neither value of the second variable goes with the first one being true. -/
def Formula.plait : Formula where
  name := none
  numVars := 4
  clauses := [[-1, -2], [-1, 2], [2, -4]]
  inRange := by decide
  hasRoom := by decide

/-- The clauses of the plait in another order, one of them twice, with their literals the other way
round. -/
def Formula.tangle : Formula where
  name := none
  numVars := 4
  clauses := [[-4, 2, -4], [2, -1], [-2, -1, -2], [-1, 2, 2, -1]]
  inRange := by decide
  hasRoom := by decide

variable {F G : Formula} {c d : List Int}

theorem SameLiterals.any_eq (h : SameLiterals c d) (p : Int → Bool) : c.any p = d.any p := by
  rw [Bool.eq_iff_iff, List.any_eq_true, List.any_eq_true]
  constructor
  · rintro ⟨l, hl, hp⟩
    exact ⟨l, h.1 hl, hp⟩
  · rintro ⟨l, hl, hp⟩
    exact ⟨l, h.2 hl, hp⟩

theorem SameLiterals.all_eq (h : SameLiterals c d) (p : Int → Bool) : c.all p = d.all p := by
  rw [List.all_eq_not_any_not, List.all_eq_not_any_not, h.any_eq]

/-- A question that depends on the literals of a clause has the same answers. -/
theorem Formula.SameClauses.any_eq (h : F.SameClauses G) {p : List Int → Bool}
    (hp : ∀ c d, SameLiterals c d → p c = p d) : F.clauses.any p = G.clauses.any p := by
  obtain ⟨hleft, hright⟩ := h
  rw [Bool.eq_iff_iff, List.any_eq_true, List.any_eq_true]
  constructor
  · rintro ⟨c, hc, hpc⟩
    obtain ⟨d, hd, hsame⟩ := hleft c hc
    exact ⟨d, hd, by rw [← hp c d hsame, hpc]⟩
  · rintro ⟨d, hd, hpd⟩
    obtain ⟨c, hc, hsame⟩ := hright d hd
    exact ⟨c, hc, by rw [hp c d hsame, hpd]⟩

theorem Formula.SameClauses.all_eq (h : F.SameClauses G) {p : List Int → Bool}
    (hp : ∀ c d, SameLiterals c d → p c = p d) : F.clauses.all p = G.clauses.all p := by
  rw [List.all_eq_not_any_not, List.all_eq_not_any_not,
    h.any_eq fun c d hsame => congrArg not (hp c d hsame)]

namespace Search

theorem alike_of_sameClauses (hvars : F.numVars = G.numVars) (hclauses : F.SameClauses G)
    (a : Assignment) : Alike F G a a := by
  constructor
  case conflict_eq => exact hclauses.any_eq fun c d hsame => hsame.all_eq a.refutes
  case solved_eq => exact hclauses.all_eq fun c d hsame => hsame.any_eq a.holds
  case free_eq => rw [Assignment.firstFree?, Assignment.firstFree?, hvars]

/-- Events are not turned if the same value is tried first. -/
theorem Lockstep.events_eq_self {settings : Settings} {a b : Assignment} {p q : Position State}
    (h : Lockstep F G settings settings.firstPhase a b p q) : q.events = p.events := by
  rw [h.events_eq, bne_self_eq_false]
  exact List.map_id p.events

end Search

theorem State.values_along_congr (hvars : F.numVars = G.numVars) (a : Assignment) :
    (along F a).values = (along G a).values := by
  simp only [along, hvars]

/-! ## Searching them -/

namespace Solver

/-- **A search depends only on the clauses as sets.**  From the initial states of two formulas with
the same clauses the same solver comes to the same verdict, with the same model, the same events and
the same counters. -/
theorem solve_eq_of_sameClauses (hvars : F.numVars = G.numVars) (hclauses : F.SameClauses G)
    (settings : Settings) (solver : Solver) :
    let left := solver.solve F settings (State.initial F)
    let right := solver.solve G settings (State.initial G)
    ∃ verdict, left.result = .ok verdict ∧ right.result = .ok verdict ∧
      left.solver = right.solver ∧ left.state.assignment = right.state.assignment := by
  rw [← State.along_nil, ← State.along_nil]
  intro left right
  have halike : ∀ branches, Assignment.Proper F (taken settings.firstPhase branches ++ []) →
      Alike F G (taken settings.firstPhase branches ++ [])
        (taken settings.firstPhase branches ++ []) :=
    fun _ _ => alike_of_sameClauses hvars hclauses _
  obtain ⟨p, q, verdict, (hleft : left = _), (hright : right = _), hend⟩ :=
    exists_lockstep halike trivial trivial solver
  -- both positions have the same branches open, and nothing was assigned before
  have hvalues : q.state.values = p.state.values := by
    rw [hend.left.state_eq, hend.right.state_eq, hend.branches_eq,
      State.values_along_congr hvars]
  have hassignment : q.state.assignment = p.state.assignment := by
    rw [hend.left.state_eq, hend.right.state_eq, State.assignment_along hend.left.proper,
      State.assignment_along hend.right.proper, hend.branches_eq]
  have hsolver : (solver.begin.finish (p, .ok verdict)).solver =
      (solver.begin.finish (q, .ok verdict)).solver := by
    simp only [finish, absorb, hend.counters_eq, hend.events_eq_self]
    -- only a solution makes a model, out of the values
    cases verdict with
    | sat => simp only [conclude, Board.entries, hvalues]
    | unsat => rfl
    | undecided => rfl
  rw [hleft, hright]
  exact ⟨verdict, rfl, rfl, hsolver, hassignment.symm⟩

/-- The tangle leads to the conflicts of the plait: both values of the second variable fail, and
then the first one is flipped. -/
theorem solve_eq_of_sameClauses_of_tangle :
    Formula.plait.numVars = Formula.tangle.numVars ∧ Formula.plait.SameClauses Formula.tangle ∧
      ∃ verdict, (solve Formula.tangle {} (State.initial Formula.tangle) {}).result = .ok verdict ∧
        (solve Formula.tangle {} (State.initial Formula.tangle) {}).solver =
          { solves := 1
            counters := ⟨3, 2, 2, 2⟩
            events := [⟨.decision, 1, 1⟩, ⟨.decision, 2, 2⟩, ⟨.flip, -2, 2⟩, ⟨.flip, -1, 1⟩,
              ⟨.decision, 2, 2⟩]
            model := [some false, some true, none, none] } := by
  have hvars : Formula.plait.numVars = Formula.tangle.numVars := rfl
  have hclauses : Formula.plait.SameClauses Formula.tangle := by decide
  obtain ⟨verdict, -, hresult, hsolver, -⟩ := solve_eq_of_sameClauses hvars hclauses {} {}
  refine ⟨hvars, hclauses, verdict, hresult, ?_⟩
  rw [← hsolver]
  decide +kernel

end Solver

end TrailSat
