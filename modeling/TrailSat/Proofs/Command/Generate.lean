import TrailSat.Command.Generate
import TrailSat.Proofs.Files.Source
import TrailSat.Proofs.Files.Tree
import TrailSat.Proofs.Flat.Reading
import TrailSat.Proofs.Generate.Bucket
import TrailSat.Proofs.Solver.Model

/-!
# What a bucket's file holds

Every line of the file of a planted bucket can be read as a formula, over as many variables as were
drawn for it, and a search without limits satisfies it (`plants_satisfiable_lines`).  The proof
follows a problem on its way: it is drawn and covered (`IsPlanted`), written as a line that is
neither blank nor broken, and read back (`Flat.readFormula_write`).  The number of variables is not
written down.  It is right because the last variable occurs, so it is the greatest one.
-/

namespace TrailSat.Command.Generate

open Arguments Files Text TrailSat.Generate

variable {Gen : Type} [Generator Gen] {tree : Tree} {folder path : String} {bucket : Bucket}
  {problem : Bucket.Problem} {gen after : Gen} {report : Report}

/-! ## Problems as formulas -/

/-- A formula is the problem that was drawn for a planted bucket. -/
structure IsSample (bucket : Bucket) (problem : Bucket.Problem) (F : Formula) : Prop where
  clauses_eq : F.clauses = problem.clauses
  /-- It has the number of variables that was drawn. -/
  numVars_eq : F.numVars = problem.numVars
  inRange : bucket.varsMin ≤ F.numVars ∧ F.numVars ≤ bucket.varsMax
  covers : ∀ v, 1 ≤ v → v ≤ F.numVars → ∃ clause ∈ F.clauses, ∃ l ∈ clause, l.natAbs = v
  distinct : ∀ clause ∈ F.clauses,
    clause.length = bucket.clauseSize ∧ (clause.map Int.natAbs).Nodup
  solved : ∀ settings : Search.Settings, settings.Unlimited → ∀ solver : Solver,
    (solver.solve F settings (State.initial F)).result = .ok .sat

theorem solve_of_satisfiable {F : Formula} (h : F.Satisfiable) {settings : Search.Settings}
    (hunlimited : settings.Unlimited) (solver : Solver) :
    (solver.solve F settings (State.initial F)).result = .ok .sat := by
  cases Solver.answered_of_unlimited F hunlimited solver with
  | found b hsatisfies hresult hstate hmodel => exact hresult
  | exhausted hnone hresult => exact absurd h hnone

theorem satisfiable_of_isPlanted {F : Formula} {numVars size : Int}
    (h : IsPlanted numVars size F.clauses) : F.Satisfiable := by
  obtain ⟨values, hvalues⟩ := h.holds
  exact ⟨valuationOf values, List.all_eq_true.2 hvalues⟩

/-- What was drawn can be read from its line. -/
theorem exists_isSample [LawfulGenerator Gen] (hplanted : bucket.planted = true)
    (hsize : 1 ≤ bucket.clauseSize) (h : Yields (bucket.drawProblem : Sampler Gen _) problem)
    (name : Option String) :
    ∃ F, Flat.readFormula name false (Flat.write problem.clauses) = .ok F ∧
      IsSample bucket problem F := by
  obtain ⟨hrange, hroom, hproblem⟩ := isPlanted_of_drawProblem hplanted hsize h
  have hvars : (problem.numVars.toNat : Int) = problem.numVars :=
    Int.toNat_of_nonneg (hproblem.numVars_nonneg hsize)
  have hlimit : problem.numVars.toNat < Value.rowBound := by omega
  let F : Formula :=
    ⟨name, problem.numVars.toNat, problem.clauses, (hproblem.sound hsize).inRange, hlimit⟩
  have hread : Flat.readFormula name false (Flat.write problem.clauses) = .ok F :=
    Flat.readFormula_write (hproblem.sound hsize) hproblem.greatestVar_eq hlimit name
  obtain ⟨numClauses, -, hshape⟩ := hproblem.wellShaped
  refine ⟨F, hread, ?_⟩
  constructor
  · rfl
  · exact hvars
  · -- the formula has the drawn number as a natural one
    change bucket.varsMin ≤ (problem.numVars.toNat : Int) ∧ _
    rw [hvars]
    exact hrange
  · intro v hv hle
    have hle : (v : Int) ≤ (problem.numVars.toNat : Int) := Int.ofNat_le.2 hle
    exact hshape.covers v hv (hvars ▸ hle)
  · intro clause hclause
    have hclause := hshape.hasShape clause hclause
    exact ⟨hclause.length_eq, hclause.distinct⟩
  · intro settings hunlimited solver
    have hsatisfiable : F.Satisfiable := satisfiable_of_isPlanted hproblem
    exact solve_of_satisfiable hsatisfiable hunlimited solver

/-! ## Problems as lines -/

theorem text_eq_ended (problems : List Bucket.Problem) :
    Bucket.text problems = ended ((problems.map Bucket.Problem.clauses).map Flat.write) := by
  rw [Bucket.text, ended, List.map_map, List.map_map]
  rfl

omit [Generator Gen] in
/-- What a run that returns has done: nothing failed, and all problems were written. -/
theorem exists_of_writeDrawn {named : Bool} {draw : StateM Gen Bucket.Drawn}
    (h : (writeDrawn tree folder path named draw).run gen = (report, after))
    (hreturned : report.ending = .returned) :
    ∃ (drawn : Bucket.Drawn) (opened : Tree), draw.run gen = (drawn, after) ∧
      drawn.failure = none ∧
      opened.writeFile path (Bucket.text drawn.problems).toUTF8 = .ok report.tree := by
  -- a bucket that cannot be opened or written does not return
  unfold writeDrawn at h
  cases hopen : openBucket tree folder path named with
  | error refusal =>
      rw [hopen] at h
      obtain ⟨rfl, -⟩ := Prod.mk.inj h
      cases hreturned
  | ok opened =>
      obtain ⟨drawn, mid, hdraw⟩ : ∃ drawn mid, draw.run gen = (drawn, mid) := ⟨_, _, rfl⟩
      rw [hopen] at h
      dsimp only at h
      rw [run_bind_of_run hdraw] at h
      cases hwrite : opened.writeFile path (Bucket.text drawn.problems).toUTF8 with
      | error e =>
          rw [hwrite] at h
          obtain ⟨rfl, -⟩ := Prod.mk.inj h
          cases hreturned
      | ok written =>
          rw [hwrite] at h
          obtain ⟨rfl, rfl⟩ := Prod.mk.inj h
          refine ⟨drawn, opened, hdraw, ?_, hwrite⟩
          cases hfailure : drawn.failure with
          | none => rfl
          | some e =>
              simp only [hfailure] at hreturned
              cases hreturned

/-- **The lines of a planted bucket's file are satisfiable problems of the sizes drawn.** -/
theorem plants_satisfiable_lines [LawfulGenerator Gen] (hplanted : bucket.planted = true)
    (hsamples : 0 ≤ bucket.samples) (hsize : 1 ≤ bucket.clauseSize)
    (hrun : (writeBucket tree folder bucket).run gen = (report, after))
    (hreturned : report.ending = .returned) :
    ∃ problems lines, bucket.draw.run gen = (⟨problems, none⟩, after) ∧
      loadProblems report.tree (bucketPath folder bucket) = .ok lines ∧
      lines.length = bucket.samples ∧
      List.Forall₂ (fun problem line => ∀ name, ∃ F,
        Flat.readFormula name false line = .ok F ∧ IsSample bucket problem F) problems lines := by
  obtain ⟨⟨problems, failure⟩, opened, hdraw, hfailure, hwritten⟩ :=
    exists_of_writeDrawn hrun hreturned
  obtain rfl : failure = none := hfailure
  have hgives : Gives (bucket.draw : StateM Gen _) ⟨problems, none⟩ :=
    ⟨gen, congrArg Prod.fst hdraw⟩
  obtain ⟨hcount, hproblems⟩ := problems_of_draw hsamples hgives rfl
  -- a problem without clauses would be a blank line, which is not read as a problem
  have hclauses : ∀ clauses ∈ problems.map Bucket.Problem.clauses, clauses ≠ [] := by
    intro clauses hmem
    obtain ⟨problem, hproblem, rfl⟩ := List.mem_map.1 hmem
    exact (isPlanted_of_drawProblem hplanted hsize (hproblems problem hproblem)).2.2.ne_nil
  have hloaded : loadProblems report.tree (bucketPath folder bucket) =
      .ok ((problems.map Bucket.Problem.clauses).map Flat.write) := by
    rw [loadProblems_of_text (Tree.readFile_of_writeFile hwritten), text_eq_ended,
      Flat.problems_lines_ended hclauses]
  refine ⟨problems, _, hdraw, hloaded, ?_, ?_⟩
  · rw [List.length_map, List.length_map]
    exact hcount
  · rw [List.map_map, List.forall₂_map_right_iff, List.forall₂_same]
    intro problem hproblem name
    exact exists_isSample hplanted hsize (hproblems problem hproblem) name

/-- Two problems over two or three variables, with about as many clauses. -/
def smallBucket : Bucket where
  varsMin := 2
  varsMax := 3
  samples := 2
  ratioMin := 0.5
  ratioMax := 1.5
  clauseSize := 2
  planted := true

/-- Words from which the first problem is drawn over two variables and the second over three. -/
def smallDraws : Draws :=
  .cycle [0, 0x80000000, 1, 0, 0, 0, 0, 0, 1, 0, 0x80000000, 0,
    1, 0x20000000, 1, 0, 1, 0, 0, 0, 0x80000000, 2, 0, 0x80000000, 0x80000000]

theorem plants_satisfiable_lines_of_small :
    let report := ((writeBucket {} "out" smallBucket).run smallDraws).1
    smallBucket.planted = true ∧ 0 ≤ smallBucket.samples ∧ 1 ≤ smallBucket.clauseSize ∧
      report.ending = .returned ∧
      ∃ lines, loadProblems report.tree "out/sat_2_3.txt" = .ok lines ∧
        lines.length = (2 : Int) ∧
        List.Forall₂ (fun problem line => ∀ name, ∃ F,
            Flat.readFormula name false line = .ok F ∧ IsSample smallBucket problem F)
          [⟨2, [[1, -2], [2, 1]]⟩, ⟨3, [[1, 2], [-3, -2]]⟩] lines := by
  have hsamples : 0 ≤ smallBucket.samples := by decide
  have hsize : 1 ≤ smallBucket.clauseSize := by decide
  have hdrawn : (smallBucket.draw.run smallDraws).1 =
      ⟨[⟨2, [[1, -2], [2, 1]]⟩, ⟨3, [[1, 2], [-3, -2]]⟩], none⟩ := by
    decide +kernel
  have hpath : bucketPath "out" smallBucket = "out/sat_2_3.txt" := by decide +kernel
  have hends : ((writeBucket {} "out" smallBucket).run smallDraws).1.ending.ctorIdx = 0 := by
    decide +kernel
  generalize hrun : (writeBucket {} "out" smallBucket).run smallDraws = outcome at hends ⊢
  obtain ⟨report, after⟩ := outcome
  have hreturned : report.ending = .returned := by
    cases hending : report.ending with
    | returned => rfl
    | exit status =>
        rw [hending] at hends
        cases hends
    | failed failure =>
        rw [hending] at hends
        cases hends
  obtain ⟨problems, lines, hdraw, hloaded, hlength, hlines⟩ :=
    plants_satisfiable_lines rfl hsamples hsize hrun hreturned
  have hproblems := hdrawn.symm.trans (congrArg Prod.fst hdraw)
  obtain ⟨rfl, -⟩ := Bucket.Drawn.mk.inj hproblems
  rw [hpath] at hloaded
  exact ⟨rfl, hsamples, hsize, hreturned, lines, hloaded, hlength, hlines⟩

end TrailSat.Command.Generate
