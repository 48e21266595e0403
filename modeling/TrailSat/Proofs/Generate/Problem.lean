import TrailSat.Proofs.Generate.Coverage
import TrailSat.Proofs.Generate.Draws

/-!
# Generated problems

The clauses of a problem are `Regular` when they are drawn: their variables are a choice, and in a
planted clause some literal agrees with the assignment, the last one if none did before it
(`holds_of_plantLiterals`).  Covering the variables keeps them so.  Hence every problem that is
generated is well shaped, whatever words are drawn, and a planted one holds under the assignment
that was drawn first (`wellShaped_of_generated`).
-/

namespace TrailSat.Generate

variable {Gen : Type} [Generator Gen] {assignment : Option (List Bool)} {values : List Bool}
  {numVars numClauses size : Int} {clauses next : List (List Int)} {clause : List Int}
  {vars : List Nat}

/-! ## Drawn clauses -/

/-- The variables of a clause are those chosen, counted from 1. -/
def IsOver (vars : List Nat) (clause : List Int) : Prop :=
  clause.map Int.natAbs = vars.map (· + 1)

theorem hasShape_of_choice (hchoice : IsChoice numVars size vars) (hover : IsOver vars clause) :
    HasShape numVars size clause := by
  have hlength : clause.length = vars.length := by
    simpa using congrArg List.length hover
  refine ⟨?_, ?_, fun l hl => ?_⟩
  · rw [hlength, hchoice.length_eq]
  · rw [hover]
    exact hchoice.nodup.map fun _ _ => Nat.succ.inj
  · have hmem : l.natAbs ∈ vars.map (· + 1) := hover ▸ List.mem_map_of_mem hl
    obtain ⟨v, hv, hvar⟩ := List.mem_map.1 hmem
    have hlt := hchoice.lt v hv
    omega

theorem natAbs_literalFor (v : Nat) (value agrees : Bool) :
    (literalFor v value agrees).natAbs = v :=
  natAbs_signed v (value == agrees)

/-- A planted literal holds if it was to agree with the assignment. -/
theorem holds_literalFor (values : List Bool) (v : Nat) (agrees : Bool) :
    (valuationOf values).holds (literalFor (v + 1) (values.getD v false) agrees) = agrees := by
  rw [literalFor, holds_signed _ (Nat.le_add_left 1 v), valuationOf, Nat.add_sub_cancel]
  cases values.getD v false <;> cases agrees <;> rfl

theorem isOver_of_plantLiterals {holds : Bool}
    (h : Gives (plantLiterals values holds vars : StateM Gen _) clause) : IsOver vars clause := by
  induction vars generalizing holds clause with
  | nil =>
      obtain rfl := h.of_pure
      rfl
  | cons v rest ih =>
      obtain ⟨coin, -, h⟩ := h.of_bind
      obtain ⟨literals, hliterals, h⟩ := h.of_bind
      obtain rfl := h.of_pure
      rw [IsOver, List.map_cons, List.map_cons, natAbs_literalFor, ih hliterals]

/-- Some literal of a planted clause holds: the last one agrees if none before it did. -/
theorem holds_of_plantLiterals
    (h : Gives (plantLiterals values false vars : StateM Gen _) clause) (hvars : vars ≠ []) : (valuationOf values).holdsClause clause = true := by
  induction vars generalizing clause with
  | nil => exact absurd rfl hvars
  | cons v rest ih =>
      obtain ⟨coin, -, h⟩ := h.of_bind
      let agrees := coin || (rest.isEmpty && !false)
      obtain ⟨literals, (hliterals : Gives (plantLiterals values agrees rest : StateM Gen _) literals),
        h⟩ := h.of_bind
      obtain rfl := h.of_pure
      rw [Valuation.holdsClause, List.any_cons, holds_literalFor, Bool.or_eq_true]
      cases hagrees : agrees with
      | true => exact .inl hagrees
      | false =>
          rw [hagrees] at hliterals
          -- the last literal would have been made to agree
          have hrest : rest ≠ [] := by
            rintro rfl
            simp [agrees] at hagrees
          exact .inr (ih hliterals hrest)

theorem regular_of_plantClause [LawfulGenerator Gen] (hsize : 1 ≤ size)
    (h : Yields (plantClause values size : Sampler Gen _) clause) :
    Regular (some values) values.length size clause := by
  obtain ⟨vars, hvars, h⟩ := h.of_bind
  have hchoice := isChoice_of_choose hvars
  have hne : vars ≠ [] := by
    rintro rfl
    have hlength := hchoice.length_eq
    rw [List.length_nil] at hlength
    omega
  refine ⟨hasShape_of_choice hchoice (isOver_of_plantLiterals h.gives), ?_⟩
  rintro _ ⟨⟩
  exact holds_of_plantLiterals h.gives hne

theorem regular_of_uniformClause [LawfulGenerator Gen]
    (h : Yields (uniformClause numVars size : Sampler Gen _) clause) :
    Regular none numVars size clause := by
  obtain ⟨vars, hvars, h⟩ := h.of_bind
  obtain ⟨signs, hsigns, h⟩ := h.of_bind
  obtain rfl := h.of_pure
  have hchoice := isChoice_of_choose hvars
  have hlength : vars.length ≤ signs.length := by
    have hvarsLength := hchoice.length_eq
    have hsignsLength := (length_of_drawRow hsigns).1
    omega
  refine ⟨hasShape_of_choice hchoice ?_, nofun⟩
  rw [IsOver, ← List.map_uncurry_zip_eq_zipWith, List.map_map]
  calc (vars.zip signs).map
          (Int.natAbs ∘ Function.uncurry fun v sign => literalFor (v + 1) true sign)
      _ = ((vars.zip signs).map Prod.fst).map (· + 1) := by
        rw [List.map_map]
        exact List.map_congr_left fun pair _ => natAbs_literalFor (pair.1 + 1) true pair.2
      _ = vars.map (· + 1) := by rw [List.map_fst_zip hlength]

/-! ## Whole problems -/

/-- As many clauses as asked for, all of them in shape, in which every variable occurs. -/
structure WellShaped (numVars numClauses size : Int) (clauses : List (List Int)) : Prop where
  length_eq : clauses.length = numClauses
  hasShape : ∀ clause ∈ clauses, HasShape numVars size clause
  covers : ∀ v : Nat, 1 ≤ v → v ≤ numVars → ∃ clause ∈ clauses, ∃ l ∈ clause, l.natAbs = v

theorem gives_of_coverAll (h : Yields (coverAll assignment numVars clauses : Sampler Gen _) next) :
    Gives (cover assignment numVars clauses : StateM Gen Covered) ⟨next, none⟩ := by
  obtain ⟨⟨covered, failure⟩, hcover, h⟩ := h.of_bind
  cases failure with
  | some e => exact absurd h not_yields_throw
  | none =>
      obtain rfl := h.of_pure
      exact hcover.gives

/-- Covering all variables makes regular clauses well shaped and keeps them regular. -/
theorem wellShaped_of_coverAll [LawfulGenerator Gen] (hvars : 0 ≤ numVars) (hlength : clauses.length = numClauses)
    (hregular : ∀ clause ∈ clauses, Regular assignment numVars size clause)
    (h : Yields (coverAll assignment numVars clauses : Sampler Gen _) next) :
    WellShaped numVars numClauses size next ∧
      ∀ clause ∈ next, Regular assignment numVars size clause := by
  have hstart : CoversBelow assignment numVars size clauses.length 1 clauses :=
    ⟨rfl, hregular, fun w hw hlt => absurd hlt (Nat.not_lt.2 hw)⟩
  have hend := hstart.run (gives_of_coverAll h)
  refine ⟨⟨?_, fun clause hclause => (hend.regular clause hclause).toHasShape,
    fun v hv hle => ?_⟩, hend.regular⟩
  · rw [hend.length_eq, hlength]
  · exact occurrences_ne_zero_iff.1 (hend.occurs v hv (by omega))

/-- **Every generated problem is well shaped, and a planted one holds under its assignment.**  There
are no further conditions on what is drawn. -/
theorem wellShaped_of_generated [LawfulGenerator Gen] (hcount : 0 ≤ numClauses) (hsize : 1 ≤ size)
    (gen after : Gen) :
    (∀ planted, (plantProblem numVars numClauses size).run.run gen = (.ok planted, after) →
      (∃ mid, (drawRow numVars).run.run gen = (.ok planted.assignment, mid)) ∧
      planted.assignment.length = numVars ∧
      (∀ clause ∈ planted.clauses,
        (valuationOf planted.assignment).holdsClause clause = true) ∧
      WellShaped numVars numClauses size planted.clauses) ∧
    ∀ clauses, (uniformProblem numVars numClauses size true).run.run gen = (.ok clauses, after) →
      WellShaped numVars numClauses size clauses := by
  constructor
  · intro planted hrun
    obtain ⟨hfits, hrun⟩ := run_of_check hrun
    obtain ⟨values, mid, hvalues, hrun⟩ := exists_of_run_bind hrun
    obtain ⟨drawn, hdrawn, h⟩ := Yields.of_bind ⟨mid, after, hrun⟩
    obtain ⟨covered, hcovered, h⟩ := h.of_bind
    obtain rfl := h.of_pure
    have hrow : values.length = numVars := (length_of_drawRow ⟨gen, mid, hvalues⟩).1
    obtain ⟨hlength, hclauses⟩ := length_of_drawEach hdrawn
    have hregular : ∀ clause ∈ drawn, Regular (some values) numVars size clause :=
      fun clause hclause => hrow ▸ regular_of_plantClause hsize (hclauses clause hclause)
    have hcountLength : drawn.length = numClauses := by omega
    obtain ⟨hshape, hkept⟩ := wellShaped_of_coverAll (by omega) hcountLength hregular hcovered
    exact ⟨⟨mid, hvalues⟩, hrow, fun clause hclause => (hkept clause hclause).holds values rfl,
      hshape⟩
  · intro clauses hrun
    obtain ⟨hfits, h⟩ := Yields.of_check ⟨gen, after, hrun⟩
    obtain ⟨drawn, hdrawn, h⟩ := h.of_bind
    obtain ⟨hlength, hclauses⟩ := length_of_drawEach hdrawn
    exact (wellShaped_of_coverAll (by omega) (by omega)
      (fun clause hclause => regular_of_uniformClause (hclauses clause hclause)) h).1

/-- Words from which both clauses are drawn over the first two variables. The third one then takes
the place of the only literal of the first clause that holds. -/
def patchedDraws (used : Nat) : Draws :=
  { Draws.cycle [0, 0, 0, 0, 0, 0x80000000, 0, 0, 0, 0x80000000, 0, 1] with used := used }

theorem wellShaped_of_patchedDraws :
    (plantProblem 3 2 2).run.run (patchedDraws 0) =
      (.ok ⟨[false, false, false], [[1, -3], [1, -2]]⟩, patchedDraws 12) ∧
    (valuationOf [false, false, false]).holdsClause [1, -3] = true ∧
    WellShaped 3 2 2 [[1, -3], [1, -2]] := by
  have hrun : (plantProblem 3 2 2).run.run (patchedDraws 0) =
      (.ok ⟨[false, false, false], [[1, -3], [1, -2]]⟩, patchedDraws 12) := rfl
  obtain ⟨-, -, hholds, hshape⟩ :=
    (wellShaped_of_generated (by decide) (by decide) _ _).1 _ hrun
  exact ⟨hrun, hholds _ (by simp), hshape⟩

end TrailSat.Generate
