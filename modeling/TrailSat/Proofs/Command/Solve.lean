import TrailSat.Command.Solve
import TrailSat.Proofs.Files.Tree
import TrailSat.Proofs.Solver.Model

/-!
# What the command tells

Without limits the exit status tells whether the formula in the file can be satisfied, and what is
written is a certificate of it: a literal for every variable, such that every clause has one of
them.  `certifies` says so of the whole command, from its words to the files afterwards.

The command is put together from three parts, and so is the proof.  The request leads to a search
without limits (`Request.Unbounded.unlimited`); the search is `Solver.Answered`; and what is
delivered arrives, on the terminal or in a file that holds it afterwards (`delivers_of_deliver`).
-/

namespace TrailSat.Command.Solve

open Arguments Files

variable {request : Request} {tree : Tree} {F : Formula} {target : String}

/-- A request to solve the formula `F` without limits. -/
structure Request.Unbounded (request : Request) (tree : Tree) (F : Formula) : Prop where
  loads : ∃ path, request.input = .value path ∧
    loadDimacs tree request.dimacsOptions path = .ok F
  verbosity : ∃ n, request.verbosity = .value n
  conflicts : ∃ n : Int, request.conflictBudget = .value n ∧ n < 0
  seconds : ∀ given, request.timeBudget = some given → ∃ x : Float, given = .value x ∧ ¬0 ≤ x

/-- A request tells where the result goes, and it can be written there. -/
structure Request.WritesTo (request : Request) (tree : Tree) (target : String) : Prop where
  output : request.output = some (.value target)
  named : target ≠ ""
  writable : target = "-" ∨ tree.Writable target

/-- What a report tells at its target, compared with the report of a command that writes no result:
on the terminal it comes after what is printed anyway, otherwise it is in the file. -/
def Delivers (silent result : Report) (target text : String) : Prop :=
  if target = "-" then result.out = silent.out ++ text
  else result.out = silent.out ∧ result.tree.readFile target = .ok text.toUTF8

/-! ## The search -/

theorem Request.Unbounded.seconds_eq (h : request.Unbounded tree F) :
    request.budgets.seconds = .ok none := by
  rw [Request.budgets]
  cases htime : request.timeBudget with
  | none => rfl
  | some given =>
      -- a time budget below zero, or one that is not a number, is none
      obtain ⟨x, rfl, hx⟩ := h.seconds given htime
      exact congrArg Except.ok (if_neg hx)

theorem Request.Unbounded.unlimited (h : request.Unbounded tree F) (clock : Nat → Float) :
    (request.settings clock).Unlimited := by
  obtain ⟨n, hconflicts, hnegative⟩ := h.conflicts
  have hlimit : request.budgets.conflicts = .ok (Search.conflictLimit? n) := by
    rw [Request.budgets, hconflicts]
    rfl
  obtain ⟨hbudget, hexpired⟩ := Solver.unlimited_of_negative hnegative hlimit h.seconds_eq clock
  exact ⟨hbudget, hexpired⟩

/-- The command delivers the verdict of the search. -/
theorem Request.Unbounded.respond_eq (h : request.Unbounded tree F) {clock : Nat → Float}
    {verdict : Verdict} (hresult : (search request clock F).result = .ok verdict)
    (readings : Readings) :
    respond request clock readings tree =
      deliver request readings tree F (search request clock F).solver verdict := by
  obtain ⟨path, hinput, hloaded⟩ := h.loads
  obtain ⟨n, hconflicts, -⟩ := h.conflicts
  obtain ⟨verbosity, hverbosity⟩ := h.verbosity
  have hload : load request tree = .ok F := by
    rw [load, hinput]
    dsimp only
    rw [hloaded]
    rfl
  have hobstacle : request.obstacle? = none := by
    rw [Request.obstacle?, h.seconds_eq, hverbosity]
  have hbudget : Search.underBudget request.budgets.conflicts (search request clock F).result =
      .ok verdict := by
    rw [hresult, Request.budgets, hconflicts]
    rfl
  rw [respond, hload]
  dsimp only
  rw [hobstacle]
  dsimp only
  rw [conclude, hbudget]

/-! ## The delivery -/

theorem delivers_of_deliver (h : request.WritesTo tree target) (readings : Readings)
    (solver : Solver) (verdict : Verdict) :
    (deliver request readings tree F solver verdict).ending = .exit verdict.exitStatus ∧
      Delivers (deliver { request with output := none } readings tree F solver verdict)
        (deliver request readings tree F solver verdict) target
        (resultText verdict solver.model) := by
  have htarget : request.target? = some target := by
    simp [Request.target?, h.output, Given.value?, h.named]
  rw [Delivers, deliver, htarget]
  dsimp only
  by_cases hterminal : target = "-"
  · rw [hterminal]
    exact ⟨rfl, rfl⟩
  · -- what is read back afterwards is at the place where the file has been put
    obtain ⟨place, hplace⟩ := (h.writable.resolve_left hterminal).exists_isTarget
    have hwritten : writeResult tree target verdict solver.model =
        { tree := tree.put place (.file (resultText verdict solver.model).toUTF8),
          ending := .returned } := by
      rw [writeResult, if_neg (by simpa using hterminal), hplace.writeFile_eq]
    rw [hwritten, if_neg hterminal]
    exact ⟨rfl, String.append_empty, hplace.readFile_put _⟩

/-- How the command ends, and what it tells, once the search has come to a verdict. -/
theorem Request.Unbounded.tells (h : request.Unbounded tree F)
    (htarget : request.WritesTo tree target) {clock : Nat → Float} {verdict : Verdict}
    (hresult : (search request clock F).result = .ok verdict) (readings : Readings) :
    (respond request clock readings tree).ending = .exit verdict.exitStatus ∧
      Delivers (respond { request with output := none } clock readings tree)
        (respond request clock readings tree) target
        (resultText verdict (search request clock F).solver.model) := by
  -- the request without a result asks for the same search
  have hsilent : Request.Unbounded { request with output := none } tree F :=
    ⟨h.loads, h.verbosity, h.conflicts, h.seconds⟩
  rw [h.respond_eq hresult, hsilent.respond_eq hresult]
  exact delivers_of_deliver htarget readings _ verdict

/-! ## The whole command -/

/-- **The exit status and the result are right.** -/
theorem certifies {words : List String} (hwords : readRequest words = .ok request)
    (hrequest : request.Unbounded tree F) (htarget : request.WritesTo tree target)
    (program : String) (clock : Nat → Float) (readings : Readings) :
    let silent := respond { request with output := none } clock readings tree
    let result := report program clock readings words tree
    (result.ending = .exit 10 ↔ F.Satisfiable) ∧ (result.ending = .exit 20 ↔ ¬F.Satisfiable) ∧
      result.ending ≠ .exit 0 ∧
      (F.Satisfiable → ∃ literals, IsModel F literals ∧
        (∀ v : Nat, (search request clock F).state.value F v = .ok none → -(v : Int) ∈ literals) ∧
        Delivers silent result target
          ("SAT\n" ++ " ".intercalate ((literals ++ [0]).map toString) ++ "\n")) ∧
      (¬F.Satisfiable → Delivers silent result target "UNSAT\n") := by
  intro silent result
  have hreport : result = respond request clock readings tree := by
    simp only [result, report, hwords]
  rw [hreport]
  have hanswered : Solver.Answered F (search request clock F) :=
    Solver.answered_of_unlimited F (hrequest.unlimited clock) {}
  -- a model satisfies the formula, and a search in vain leaves none that does
  cases hanswered with
  | found b hsatisfies hresult hstate hmodel =>
      have hsatisfiable := Solver.satisfiable_of_satisfies hsatisfies
      obtain ⟨hending, hdelivers⟩ := hrequest.tells htarget hresult readings
      rw [hmodel] at hdelivers
      rw [hending, hstate]
      exact ⟨iff_of_true rfl hsatisfiable, iff_of_false nofun (not_not.2 hsatisfiable), nofun,
        fun _ => ⟨_, isModel_of_satisfies hsatisfies, fun v hv => neg_mem_modelLiterals hv,
          hdelivers⟩, absurd hsatisfiable⟩
  | exhausted hnone hresult =>
      obtain ⟨hending, hdelivers⟩ := hrequest.tells htarget hresult readings
      rw [hending]
      exact ⟨iff_of_false nofun hnone, iff_of_true rfl hnone, nofun, fun h => absurd h hnone,
        fun _ => hdelivers⟩

/-- A file with one clause.  The search satisfies it by its first variable and leaves the second one
without a value. -/
def sampleTree : Tree where
  entries := [(["in.cnf"], .file "p cnf 2 1\n-1 2 0\n".toUTF8)]

/-- The formula in the file. -/
def sampleFormula : Formula where
  name := some "in.cnf"
  numVars := 2
  clauses := [[-1, 2]]
  inRange := by decide
  hasRoom := by decide

/-- Words that ask for a result in a file. -/
def sampleWords : List String :=
  ["-i", "in.cnf", "--first-phase", "false", "-o", "out"]

theorem certifies_sample :
    let readings : Readings := ⟨"0", "0", "8.00", "0.001"⟩
    ∃ request, readRequest sampleWords = .ok request ∧
      request.Unbounded sampleTree sampleFormula ∧ request.WritesTo sampleTree "out" ∧
      let result := report "solve" Search.stillClock readings sampleWords sampleTree
      result.ending = .exit 10 ∧ ∃ literals, IsModel sampleFormula literals ∧
        result.tree.readFile "out" =
          .ok ("SAT\n" ++ " ".intercalate ((literals ++ [0]).map toString) ++ "\n").toUTF8 := by
  intro readings
  have hgiven : ((readRequest sampleWords).toOption.map fun request =>
      (request.input, request.output, request.verbosity, request.conflictBudget)) =
      some (.value "in.cnf", some (.value "out"), .value 1, .value (-1)) := by
    decide +kernel
  have hrest : ((readRequest sampleWords).toOption.map fun request =>
      (request.timeBudget.isNone, request.maxClauseLength.isNone, request.rejectEmpty)) =
      some (true, true, false) := by
    decide +kernel
  obtain ⟨request, hread, hfields⟩ := Option.map_eq_some_iff.1 hgiven
  simp only [hread, Option.map_some, Option.some.injEq, Prod.mk.injEq,
    Option.isNone_iff_eq_none] at hfields hrest
  obtain ⟨hinput, houtput, hverbosity, hconflicts⟩ := hfields
  obtain ⟨htime, hlimit, hreject⟩ := hrest
  have hloaded : (loadDimacs sampleTree {} "in.cnf").toOption = some sampleFormula := by
    decide +kernel
  have hoptions : request.dimacsOptions = {} := by
    rw [Request.dimacsOptions, hlimit, hreject]
    rfl
  have hwords := eq_ok_of_toOption hread
  have hrequest : request.Unbounded sampleTree sampleFormula :=
    ⟨⟨_, hinput, hoptions ▸ eq_ok_of_toOption hloaded⟩, ⟨_, hverbosity⟩,
      ⟨_, hconflicts, by decide⟩, fun _ hgiven => by rw [htime] at hgiven; cases hgiven⟩
  have htarget : request.WritesTo sampleTree "out" :=
    ⟨houtput, by decide, .inr ⟨.empty, _, rfl⟩⟩
  have hsatisfiable : sampleFormula.Satisfiable := ⟨fun _ => false, rfl⟩
  obtain ⟨hsat, -, -, hmodel, -⟩ :=
    certifies hwords hrequest htarget "solve" Search.stillClock readings
  obtain ⟨literals, hliterals, -, hdelivers⟩ := hmodel hsatisfiable
  rw [Delivers, if_neg (by decide)] at hdelivers
  exact ⟨request, hwords, hrequest, htarget, hsat.2 hsatisfiable, literals, hliterals, hdelivers.2⟩

end TrailSat.Command.Solve
