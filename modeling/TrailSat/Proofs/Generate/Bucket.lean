import TrailSat.Generate.Bucket
import TrailSat.Proofs.Formula.Building
import TrailSat.Proofs.Generate.Problem

/-!
# The problems of a planted bucket

Whatever is drawn, a problem of a planted bucket is over a number of variables in the range
of the bucket, has at least one clause, is well shaped, and holds under the assignment that it was
built around (`isPlanted_of_drawProblem`).  A bucket from which no draw failed has as many problems
as were asked for, and all of them are such problems (`problems_of_draw`).
-/

namespace TrailSat.Generate

variable {Gen α : Type} [Generator Gen] {numVars numClauses size : Int} {bucket : Bucket}
  {problem : Bucket.Problem}

/-! ## Steps of a draw -/

omit [Generator Gen] in
theorem Yields.of_run {x : Sampler Gen α} {a : α} (h : Gives x.run (.ok a)) : Yields x a := by
  obtain ⟨gen, hrun⟩ := h
  exact ⟨gen, _, Prod.ext hrun rfl⟩

omit [Generator Gen] in
/-- What a step that draws nothing gives. -/
theorem Yields.of_except {x : Except SamplingError α} {a : α}
    (h : Yields (liftM x : Sampler Gen α) a) : x = .ok a := by
  obtain ⟨gen, after, hrun⟩ := h
  exact congrArg Prod.fst hrun

theorem one_le_clauseCount {ratio : Float} (h : Bucket.clauseCount ratio numVars = .ok numClauses) :
    1 ≤ numClauses := by
  unfold Bucket.clauseCount at h
  dsimp only at h
  split at h
  · obtain rfl := Except.ok.inj h
    exact Int.le_max_left 1 _
  · cases h

/-! ## Problems -/

/-- Clauses in shape, at least one, in which every variable occurs, and which hold together. -/
structure IsPlanted (numVars size : Int) (clauses : List (List Int)) : Prop where
  wellShaped : ∃ numClauses, 1 ≤ numClauses ∧ WellShaped numVars numClauses size clauses
  holds : ∃ values : List Bool, ∀ clause ∈ clauses, (valuationOf values).holdsClause clause = true

namespace IsPlanted

variable {clauses : List (List Int)}

theorem ne_nil (h : IsPlanted numVars size clauses) : clauses ≠ [] := by
  obtain ⟨numClauses, hcount, hshape⟩ := h.wellShaped
  rintro rfl
  have hlength := hshape.length_eq
  rw [List.length_nil] at hlength
  omega

theorem nonempty (h : IsPlanted numVars size clauses) (hsize : 1 ≤ size) : [] ∉ clauses := by
  obtain ⟨numClauses, -, hshape⟩ := h.wellShaped
  intro hmem
  have hlength := (hshape.hasShape [] hmem).length_eq
  rw [List.length_nil] at hlength
  omega

theorem inRange (h : IsPlanted numVars size clauses) :
    Formula.InRange numVars.toNat clauses := by
  obtain ⟨numClauses, -, hshape⟩ := h.wellShaped
  intro clause hclause l hl
  have hrange := (hshape.hasShape clause hclause).inRange l hl
  omega

/-- The last variable is the greatest that occurs. -/
theorem greatestVar_eq (h : IsPlanted numVars size clauses) :
    Formula.greatestVar clauses = numVars.toNat := by
  obtain ⟨numClauses, -, hshape⟩ := h.wellShaped
  apply Formula.greatestVar_eq h.inRange
  intro hvars
  exact hshape.covers numVars.toNat (by omega) (by omega)

theorem numVars_nonneg (h : IsPlanted numVars size clauses) (hsize : 1 ≤ size) : 0 ≤ numVars := by
  obtain ⟨clause, hclause⟩ := List.exists_mem_of_ne_nil _ h.ne_nil
  have hne : clause ≠ [] := fun hnil => h.nonempty hsize (hnil ▸ hclause)
  obtain ⟨l, hl⟩ := List.exists_mem_of_ne_nil _ hne
  obtain ⟨numClauses, -, hshape⟩ := h.wellShaped
  have hrange := (hshape.hasShape clause hclause).inRange l hl
  omega

/-- The problem as a formula. -/
theorem sound (h : IsPlanted numVars size clauses) (hsize : 1 ≤ size) :
    Formula.Sound false numVars.toNat clauses.length clauses where
  inRange := h.inRange
  length_eq := rfl
  nonempty := fun _ => h.nonempty hsize

end IsPlanted

theorem isPlanted_of_plantProblem [LawfulGenerator Gen] {planted : Planted}
    (hcount : 1 ≤ numClauses) (hsize : 1 ≤ size)
    (h : Yields (plantProblem numVars numClauses size : Sampler Gen _) planted) :
    numVars < Value.rowBound ∧ IsPlanted numVars size planted.clauses := by
  obtain ⟨hfits, h⟩ := h.of_check
  obtain ⟨values, hvalues, h⟩ := h.of_bind
  obtain ⟨drawn, hdrawn, h⟩ := h.of_bind
  obtain ⟨covered, hcovered, h⟩ := h.of_bind
  obtain rfl := h.of_pure
  obtain ⟨hrow, hroom⟩ := length_of_drawRow hvalues
  have hbound : Generator.rowRoom Gen ≤ Value.rowBound := LawfulGenerator.rowRoom_le_rowBound
  obtain ⟨hlength, hclauses⟩ := length_of_drawEach hdrawn
  have hregular : ∀ clause ∈ drawn, Regular (some values) numVars size clause := by
    intro clause hclause
    rw [← hrow]
    exact regular_of_plantClause hsize (hclauses clause hclause)
  have hcountLength : drawn.length = numClauses := by omega
  obtain ⟨hshape, hkept⟩ := wellShaped_of_coverAll (by omega) hcountLength hregular hcovered
  exact ⟨by omega, ⟨numClauses, hcount, hshape⟩,
    values, fun clause hclause => (hkept clause hclause).holds values rfl⟩

theorem isPlanted_of_drawClauses [LawfulGenerator Gen] {clauses : List (List Int)}
    (hcount : 1 ≤ numClauses) (hsize : 1 ≤ size)
    (h : Yields (Bucket.drawClauses true numVars numClauses size : Sampler Gen _) clauses) :
    numVars < Value.rowBound ∧ IsPlanted numVars size clauses := by
  rw [Bucket.drawClauses, if_pos rfl] at h
  obtain ⟨planted, hplanted, h⟩ := h.of_bind
  obtain rfl := h.of_pure
  exact isPlanted_of_plantProblem hcount hsize hplanted

/-- **A problem of a planted bucket.** -/
theorem isPlanted_of_drawProblem [LawfulGenerator Gen] (hplanted : bucket.planted = true)
    (hsize : 1 ≤ bucket.clauseSize) (h : Yields (bucket.drawProblem : Sampler Gen _) problem) :
    (bucket.varsMin ≤ problem.numVars ∧ problem.numVars ≤ bucket.varsMax) ∧
      problem.numVars < Value.rowBound ∧
      IsPlanted problem.numVars bucket.clauseSize problem.clauses := by
  obtain ⟨numVars, hvars, h⟩ := h.of_bind
  obtain ⟨ratio, -, h⟩ := h.of_bind
  obtain ⟨numClauses, hcount, h⟩ := h.of_bind
  obtain ⟨clauses, hclauses, h⟩ := h.of_bind
  obtain rfl := h.of_pure
  rw [hplanted] at hclauses
  obtain ⟨hlow, hhigh⟩ := range_of_drawInt hvars
  exact ⟨⟨hlow, Int.le_of_lt_add_one hhigh⟩,
    isPlanted_of_drawClauses (one_le_clauseCount hcount.of_except) hsize hclauses⟩

/-! ## All of them -/

omit [Generator Gen] in
theorem problems_of_drawProblems {draw : Sampler Gen Bucket.Problem} {count : Nat}
    {drawn : Bucket.Drawn} (h : Gives (Bucket.drawProblems draw count) drawn)
    (hfailure : drawn.failure = none) :
    drawn.problems.length = count ∧ ∀ problem ∈ drawn.problems, Yields draw problem := by
  induction count generalizing drawn with
  | zero =>
      obtain rfl := h.of_pure
      exact ⟨rfl, nofun⟩
  | succ count ih =>
      obtain ⟨first, hfirst, h⟩ := h.of_bind
      -- a draw that fails is the last one, and the failure is kept
      cases first with
      | error e =>
          obtain rfl := h.of_pure
          cases hfailure
      | ok problem =>
          obtain ⟨rest, hrest, h⟩ := h.of_bind
          obtain rfl := h.of_pure
          obtain ⟨hlength, hproblems⟩ := ih hrest hfailure
          exact ⟨congrArg (· + 1) hlength, List.forall_mem_cons.2 ⟨.of_run hfirst, hproblems⟩⟩

/-- **A bucket has as many problems as were asked for.** -/
theorem problems_of_draw {drawn : Bucket.Drawn} (hsamples : 0 ≤ bucket.samples)
    (h : Gives (bucket.draw : StateM Gen _) drawn) (hfailure : drawn.failure = none) :
    drawn.problems.length = bucket.samples ∧
      ∀ problem ∈ drawn.problems, Yields (bucket.drawProblem : Sampler Gen _) problem := by
  unfold Bucket.draw Bucket.drawMany at h
  split at h
  · obtain rfl := h.of_pure
    cases hfailure
  split at h
  · obtain rfl := h.of_pure
    cases hfailure
  · obtain ⟨hlength, hproblems⟩ := problems_of_drawProblems h hfailure
    exact ⟨by omega, hproblems⟩

end TrailSat.Generate
