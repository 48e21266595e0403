import TrailSat.Proofs.Search.Lockstep
import TrailSat.Proofs.Solver.SameClauses
import TrailSat.Proofs.Solver.Verdict

/-!
# Opposite literals

Replacing every literal of a formula by its opposite exchanges the two truth values and nothing
else.  A search that also tries the other value first does the same on the opposite formula: it
decides and flips the same variables at the same moments, each with the opposite value, and ends
with the opposite model.

An assignment with the opposite values satisfies and falsifies the opposites of the same clauses
and leaves the same variables free, so the two searches are in lockstep.
-/

namespace TrailSat

open Search

/-- The clause with the opposite literals. -/
def oppositeClause (clause : List Int) : List Int :=
  clause.map (- ·)

/-- The formula with the opposite literals. -/
def Formula.opposite (F : Formula) : Formula where
  name := F.name
  numVars := F.numVars
  clauses := F.clauses.map oppositeClause
  inRange := by
    intro clause hclause l hl
    obtain ⟨c, hc, rfl⟩ := List.mem_map.1 hclause
    obtain ⟨k, hk, rfl⟩ := List.mem_map.1 hl
    obtain ⟨hne, hhigh⟩ := F.inRange c hc k hk
    exact ⟨Int.neg_ne_zero.2 hne, by rwa [Int.natAbs_neg]⟩
  hasRoom := F.hasRoom

/-- The opposite of an entry, if it is a value. -/
def oppositeEntry (entry : Option Bool) : Option Bool :=
  entry.map (! ·)

/-- The solver that has recorded the opposite literals and found the opposite model. -/
def Solver.opposite (solver : Solver) : Solver where
  solves := solver.solves
  counters := solver.counters
  events := solver.events.map fun e => { e with literal := -e.literal }
  model := solver.model.map oppositeEntry

namespace Assignment

/-- The assignment of the same variables with the opposite values. -/
def opposite (a : Assignment) : Assignment :=
  a.map fun e => (e.1, !e.2)

theorem value?_opposite (a : Assignment) (v : Nat) :
    a.opposite.value? v = oppositeEntry (a.value? v) := by
  induction a with
  | nil => rfl
  | cons e earlier ih =>
      obtain ⟨w, value⟩ := e
      rw [opposite, List.map_cons, value?_cons, value?_cons, ← opposite, ih]
      split <;> rfl

/-! ## Opposite clauses -/

theorem beq_oppositeEntry (entry : Option Bool) (value : Bool) :
    (oppositeEntry entry == some (!value)) = (entry == some value) := by
  cases entry with
  | none => rfl
  | some old => cases old <;> cases value <;> rfl

theorem holds_opposite (a : Assignment) {l : Int} (hl : l ≠ 0) :
    a.opposite.holds (-l) = a.holds l := by
  have hsign : decide (0 < -l) = !decide (0 < l) := by
    rw [← decide_not]
    exact decide_eq_decide.2 (by omega)
  rw [holds, holds, Int.natAbs_neg, value?_opposite, hsign, beq_oppositeEntry]

theorem refutes_opposite (a : Assignment) {l : Int} (hl : l ≠ 0) :
    a.opposite.refutes (-l) = a.refutes l := by
  have hsign : decide (-l < 0) = !decide (l < 0) := by
    rw [← decide_not]
    exact decide_eq_decide.2 (by omega)
  rw [refutes, refutes, Int.natAbs_neg, value?_opposite, hsign, beq_oppositeEntry]

theorem satisfies_opposite (a : Assignment) {clause : List Int} (hne : ∀ l ∈ clause, l ≠ 0) :
    a.opposite.satisfies (oppositeClause clause) = a.satisfies clause := by
  rw [satisfies, oppositeClause, List.any_map]
  exact any_eq_any_of_mem fun l hl => holds_opposite a (hne l hl)

theorem falsifies_opposite (a : Assignment) {clause : List Int} (hne : ∀ l ∈ clause, l ≠ 0) :
    a.opposite.falsifies (oppositeClause clause) = a.falsifies clause := by
  rw [falsifies, oppositeClause, List.all_map]
  exact all_eq_all_of_mem fun l hl => refutes_opposite a (hne l hl)

theorem firstFree?_opposite (F : Formula) (a : Assignment) :
    a.opposite.firstFree? F.opposite = a.firstFree? F := by
  rw [firstFree?, firstFree?]
  congr 1
  funext v
  rw [value?_opposite, oppositeEntry, Option.isNone_map]

theorem alike_opposite (F : Formula) (a : Assignment) : Alike F F.opposite a a.opposite := by
  have hne : ∀ clause ∈ F.clauses, ∀ l ∈ clause, l ≠ 0 := fun clause hclause l hl =>
    (F.inRange clause hclause l hl).1
  constructor
  case conflict_eq =>
    rw [Formula.opposite, List.any_map]
    exact (any_eq_any_of_mem fun clause hclause => falsifies_opposite a (hne clause hclause)).symm
  case solved_eq =>
    rw [Formula.opposite, List.all_map]
    exact (all_eq_all_of_mem fun clause hclause => satisfies_opposite a (hne clause hclause)).symm
  case free_eq => exact (firstFree?_opposite F a).symm

end Assignment

theorem Search.taken_not (phase : Bool) (branches : List Branch) :
    taken (!phase) branches = (taken phase branches).opposite := by
  rw [taken, taken, Assignment.opposite, List.map_map]
  refine List.map_congr_left fun ⟨v, flipped⟩ _ => ?_
  cases flipped <;> rfl

theorem State.values_along_opposite (F : Formula) (a : Assignment) :
    (along F.opposite a.opposite).values = (along F a).values.map oppositeEntry := by
  rw [along, along, List.map_map]
  exact List.map_congr_left fun index _ => Assignment.value?_opposite a (index + 1)

namespace Solver

/-! ## The opposite search -/

/-- A solver takes over the opposite from a search that came to the opposite of a point. -/
theorem finish_opposite {F : Formula} {settings : Settings} {a b : Assignment}
    {p q : Position State} (h : Lockstep F F.opposite settings (!settings.firstPhase) a b p q)
    (hvalues : q.state.values = p.state.values.map oppositeEntry) (solver : Solver)
    (verdict : Verdict) :
    (solver.opposite.finish (q, .ok verdict)).solver =
      (solver.finish (p, .ok verdict)).solver.opposite := by
  -- the values that are tried first differ, so every event is turned
  have hevents : q.events = p.events.map fun e => { e with literal := -e.literal } := by
    rw [h.events_eq, Bool.not_bne_self]
    rfl
  have habsorb : solver.opposite.absorb q = (solver.absorb p).opposite := by
    simp [absorb, opposite, h.counters_eq, hevents]
  rw [finish, finish, habsorb]
  cases verdict with
  | sat => simp only [conclude, opposite, Board.entries, hvalues]
  | unsat => rfl
  | undecided => rfl

/-- **Trying the other value first mirrors the search.**  On the opposite formula, with the other
value tried first, the opposite solver comes to the same verdict and to the opposite of what it
would otherwise come to: the same counters, the same events with the opposite literals, and the
opposite model.  A solver that has not been asked before is its own opposite. -/
theorem solve_opposite (F : Formula) (settings : Settings) (solver : Solver) :
    let left := solver.solve F settings (State.initial F)
    let right := solver.opposite.solve F.opposite (settings.withPhase !settings.firstPhase)
      (State.initial F.opposite)
    ∃ verdict, left.result = .ok verdict ∧ right.result = .ok verdict ∧
      right.solver = left.solver.opposite := by
  rw [← State.along_nil, ← State.along_nil]
  intro left right
  have hopposite (branches : List Branch) : taken (!settings.firstPhase) branches ++ [] =
      Assignment.opposite (taken settings.firstPhase branches ++ []) := by
    rw [List.append_nil, List.append_nil, taken_not]
  have halike : ∀ branches, Assignment.Proper F (taken settings.firstPhase branches ++ []) →
      Alike F F.opposite (taken settings.firstPhase branches ++ [])
        (taken (!settings.firstPhase) branches ++ []) := by
    intro branches _
    rw [hopposite]
    exact Assignment.alike_opposite F _
  obtain ⟨p, q, verdict, hleft, hright, hend⟩ :=
    exists_lockstep_of_run halike trivial trivial solver.counters
  have hvalues : q.state.values = p.state.values.map oppositeEntry := by
    rw [hend.left.state_eq, hend.right.state_eq, hend.branches_eq, hopposite,
      State.values_along_opposite]
  have hfirst : left = solver.begin.finish (p, .ok verdict) :=
    congrArg solver.begin.finish hleft
  have hsecond : right = solver.begin.opposite.finish (q, .ok verdict) :=
    congrArg solver.begin.opposite.finish hright
  rw [hfirst, hsecond]
  exact ⟨verdict, rfl, rfl, finish_opposite hend hvalues solver.begin verdict⟩

/-- The first two variables are tried with the value `false` first, and both are flipped. -/
theorem solve_opposite_of_plait :
    let settings : Settings := { firstPhase := true }
    let right := solve Formula.plait.opposite (settings.withPhase false)
      (State.initial Formula.plait.opposite) {}
    Formula.plait.opposite.clauses = [[1, 2], [1, -2], [-2, 4]] ∧ right.result = .ok .sat ∧
      right.solver.events =
        [⟨.decision, -1, 1⟩, ⟨.decision, -2, 2⟩, ⟨.flip, 2, 2⟩, ⟨.flip, 1, 1⟩,
          ⟨.decision, -2, 2⟩] ∧
      right.solver.counters = ⟨3, 2, 2, 2⟩ ∧
      right.solver.model = [some true, some false, none, none] := by
  intro settings right
  obtain ⟨verdict, hleft, hright, hsolver⟩ := solve_opposite Formula.plait settings {}
  have hsat : (solve Formula.plait settings (State.initial Formula.plait) {}).result = .ok .sat :=
    result_of_toOption (by decide +kernel)
  obtain rfl := Except.ok.inj (hleft.symm.trans hsat)
  have hsolver' : right.solver = (solve Formula.plait settings (State.initial Formula.plait)
    {}).solver.opposite := hsolver
  refine ⟨rfl, hright, ?_, ?_, ?_⟩
  all_goals
    rw [hsolver']
    decide +kernel

end Solver

end TrailSat
