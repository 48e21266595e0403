import TrailSat.Command.Solve
import TrailSat.Proofs.Arguments.Reading
import TrailSat.Proofs.Files.Damage
import TrailSat.Proofs.Files.Tree
import TrailSat.Proofs.Search.Positions
import TrailSat.Proofs.Solver.Verdict

/-!
# What the command does about a file that cannot be loaded

A file that cannot be loaded should be reported as an error.  Some errors escape the report: a path
with a null character, bytes that are not text, compressed data that is corrupt or cut off, and a
formula that there is no room for.  `Escapes` says when they occur, in terms of the bytes of the
file and of the grammar.  Such a file indeed cannot be loaded (`loadDimacs_of_escapes`), and all
other errors are reported (`escapes_or_reported`).

So the command ends with an exit status unless one of these errors occurs (`exits_unless_escapes`).
One byte is enough for that (`not_exits_garbled`).
-/

namespace TrailSat.Command.Solve

open Arguments Files Dimacs

variable {request : Request} {tree : Tree} {path : String} {allowEmpty : Bool} {limit : Option Int}
  {e : LoadError}

/-! ## Errors that are not reported -/

/-- Damage that the command gives up on. -/
inductive Silent : Damage → Prop where
  | notText : Silent .notText
  | truncated : Silent (.compressed .truncated)
  | corrupt (what : Gzip.Corruption) : Silent (.compressed (.corrupt what))

/-- The errors of loading that are not reported, and when they occur. -/
inductive Escapes (tree : Tree) (path : String) (allowEmpty : Bool) (limit : Option Int) :
    LoadError → Prop where
  /-- The path cannot be handed to the system. -/
  | nullCharacter (hnull : hasNull path = true) :
      Escapes tree path allowEmpty limit (.file .nullCharacter)
  /-- The bytes of a plain file are not text, and the reader gets to where they are not. -/
  | notText (bytes : ByteArray) (hplain : endsWith path ".gz" = false)
      (hread : tree.readFile path = .ok bytes) (hbytes : ∀ s : String, bytes ≠ s.toUTF8)
      (hlines : Unfinished limit (Source.ofBytes bytes).lines) :
      Escapes tree path allowEmpty limit (.damaged .notText)
  /-- The contents of a compressed file are lost or not text, and the reader gets there. -/
  | compressed (bytes : ByteArray) (damage : Damage) (hgzip : endsWith path ".gz" = true)
      (hread : tree.readFile path = .ok bytes)
      (hdamage : (Source.ofCompressed bytes).damage = some damage) (hsilent : Silent damage)
      (hlines : Unfinished limit (Source.ofCompressed bytes).lines) :
      Escapes tree path allowEmpty limit (.damaged damage)
  /-- The text describes clauses over too many variables. -/
  | noRoom (source : Source) (numVars numClauses : Nat) (clauses : List (List Int))
      (hopen : openDimacs tree path = .ok source)
      (hseen : source.damage = none ∨ ¬Unfinished limit source.lines)
      (hdescribes : Describes allowEmpty limit source.lines numVars numClauses clauses)
      (hroom : Value.rowBound ≤ numVars) :
      Escapes tree path allowEmpty limit (.notDimacs ⟨none, .flawed (.noRoom (.ofVars numVars))⟩)

theorem loadDimacs_of_openDimacs {source : Source} (hopen : openDimacs tree path = .ok source)
    (options : Options) : loadDimacs tree options path = readDimacs options (some path) source := by
  rw [loadDimacs, hopen]

theorem loadDimacs_of_escapes (h : Escapes tree path allowEmpty limit e) :
    loadDimacs tree (.ofLimit allowEmpty limit) path = .error e := by
  cases h with
  | nullCharacter hnull =>
      have hread : tree.readFile path = .error .nullCharacter :=
        Tree.onPath_eq_nullCharacter_iff.2 hnull
      rw [loadDimacs, openDimacs_eq_error_iff.2 hread]
  | notText bytes hplain hread hbytes hlines =>
      have hopen : openDimacs tree path = .ok (.ofBytes bytes) := by
        apply openDimacs_eq_ok_iff.2
        exact ⟨bytes, hread, by rw [hplain]; rfl⟩
      have hdamaged : (Source.ofBytes bytes).damage ≠ none := by
        intro hnone
        obtain ⟨s, hs⟩ := Source.damage_ofBytes_eq_none_iff.1 hnone
        exact hbytes s hs
      obtain ⟨damage, hdamage⟩ := Option.ne_none_iff_exists'.1 hdamaged
      obtain rfl := Source.eq_notText_of_damage hdamage
      rw [loadDimacs_of_openDimacs hopen]
      exact readDimacs_of_unfinished hdamage hlines
  | compressed bytes damage hgzip hread hdamage hsilent hlines =>
      have hopen : openDimacs tree path = .ok (.ofCompressed bytes) := by
        apply openDimacs_eq_ok_iff.2
        exact ⟨bytes, hread, by rw [if_pos hgzip]⟩
      rw [loadDimacs_of_openDimacs hopen]
      exact readDimacs_of_unfinished hdamage hlines
  | noRoom source numVars numClauses clauses hopen hseen hdescribes hroom =>
      rw [loadDimacs_of_openDimacs hopen, readDimacs_of_seen hseen, parse_of_describes hdescribes,
        dif_neg (Nat.not_lt.2 hroom)]
      rfl

theorem reported?_of_silent {damage : Damage} (h : Silent damage) :
    reported? (.damaged damage) = none := by
  cases h <;> rfl

theorem reported?_of_escapes (h : Escapes tree path allowEmpty limit e) : reported? e = none := by
  cases h with
  | nullCharacter _ | notText _ _ _ _ _ | noRoom _ _ _ _ _ _ _ _ => rfl
  | compressed _ _ _ _ _ hsilent _ => exact reported?_of_silent hsilent

/-! ## Errors that are reported -/

theorem silent_or_reported (damage : Damage) :
    Silent damage ∨
      reported? (.damaged damage) = some (Failure.load (.damaged damage)).message := by
  cases damage with
  | notText => exact .inl .notText
  | compressed fault =>
      cases fault with
      | truncated => exact .inl .truncated
      | corrupt what => exact .inl (.corrupt what)
      | _ => exact .inr rfl

/-- Damage that a reader gets to escapes or is reported. -/
theorem escapes_or_reported_of_damage {source : Source} {damage : Damage}
    (hopen : openDimacs tree path = .ok source) (hdamage : source.damage = some damage)
    (hlines : Unfinished limit source.lines) :
    Escapes tree path allowEmpty limit (.damaged damage) ∨
      reported? (.damaged damage) = some (Failure.load (.damaged damage)).message := by
  obtain ⟨bytes, hread, hsource⟩ := openDimacs_eq_ok_iff.1 hopen
  cases hname : endsWith path ".gz" with
  | true =>
      rw [if_pos hname] at hsource
      subst hsource
      rcases silent_or_reported damage with hsilent | hreported
      · exact .inl (.compressed bytes damage hname hread hdamage hsilent hlines)
      · exact .inr hreported
  | false =>
      rw [hname] at hsource
      obtain rfl : source = .ofBytes bytes := hsource
      have hbytes : ∀ s : String, bytes ≠ s.toUTF8 := by
        intro s hs
        rw [Source.damage_ofBytes_eq_none_iff.2 ⟨s, hs⟩] at hdamage
        cases hdamage
      obtain rfl := Source.eq_notText_of_damage hdamage
      exact .inl (.notText bytes hname hread hbytes hlines)

/-- A text that is not read escapes, for lack of room, or is reported. -/
theorem escapes_or_reported_of_parse (hlimit : Tellable limit) {source : Source}
    {error : ParseError} (hopen : openDimacs tree path = .ok source)
    (hseen : source.damage = none ∨ ¬Unfinished limit source.lines)
    (h : parse (.ofLimit allowEmpty limit) (some path) source.lines = .error error) :
    Escapes tree path allowEmpty limit (.notDimacs error) ∨
      reported? (.notDimacs error) = some (Failure.load (.notDimacs error)).message := by
  -- a text that obeys the grammar is refused for lack of room only
  by_cases hdescribes : ∃ numVars numClauses clauses,
      Describes allowEmpty limit source.lines numVars numClauses clauses
  · left
    obtain ⟨numVars, numClauses, clauses, hdescribes⟩ := hdescribes
    rw [parse_of_describes hdescribes] at h
    split at h
    · cases h
    · next hroom =>
      obtain rfl := Except.error.inj h
      exact .noRoom source numVars numClauses clauses hopen hseen hdescribes
        (Nat.le_of_not_lt hroom)
  · right
    obtain ⟨other, hother, hblames | ⟨-, huntold⟩⟩ := parse_of_not_describes
      (fun numVars numClauses clauses hd => hdescribes ⟨numVars, numClauses, clauses, hd⟩)
      (some path)
    · obtain rfl := Except.error.inj (hother.symm.trans h)
      exact if_pos hblames
    · -- the limit came from a word, so it is short enough for the message to be built
      exact absurd hlimit huntold

/-- **An error of loading escapes or is reported.** -/
theorem escapes_or_reported (hlimit : Tellable limit)
    (h : loadDimacs tree (.ofLimit allowEmpty limit) path = .error e) :
    Escapes tree path allowEmpty limit e ∨ reported? e = some (Failure.load e).message := by
  cases hopen : openDimacs tree path with
  | error error =>
      rw [loadDimacs, hopen] at h
      obtain rfl := Except.error.inj h
      cases error with
      | refused trouble refusedPath => exact .inr rfl
      | nullCharacter =>
          have hread := openDimacs_eq_error_iff.1 hopen
          exact .inl (.nullCharacter (Tree.onPath_eq_nullCharacter_iff.1 hread))
  | ok source =>
      rw [loadDimacs_of_openDimacs hopen] at h
      by_cases hseen : source.damage = none ∨ ¬Unfinished limit source.lines
      · rw [readDimacs_of_seen hseen] at h
        cases hparse : parse (.ofLimit allowEmpty limit) (some path) source.lines with
        | ok F =>
            rw [hparse] at h
            cases h
        | error error =>
            rw [hparse] at h
            obtain rfl := Except.error.inj h
            exact escapes_or_reported_of_parse hlimit hopen hseen hparse
      · -- the reader wants more lines than there are, and meets the damage
        obtain ⟨hdamaged, hlines⟩ := not_or.1 hseen
        obtain ⟨damage, hdamage⟩ := Option.ne_none_iff_exists'.1 hdamaged
        rw [readDimacs_of_unfinished hdamage (not_not.1 hlines)] at h
        obtain rfl := Except.error.inj h
        exact escapes_or_reported_of_damage hopen hdamage (not_not.1 hlines)

/-! ## Requests -/

/-- A request that gives a value to every option that needs one, and asks for no result. -/
structure Request.Valid (request : Request) (path : String) : Prop where
  input : request.input = .value path
  output : request.output = none
  verbosity : ∃ n, request.verbosity = .value n
  conflicts : ∃ n, request.conflictBudget = .value n
  seconds : ∀ given, request.timeBudget = some given → ∃ x, given = .value x
  maxClauseLength : ∀ given, request.maxClauseLength = some given → ∃ n, given = .value n

/-- The greatest number of literals in a clause, if that is limited. -/
def Request.limit? (request : Request) : Option Int :=
  request.maxClauseLength.bind Given.value?

/-- A limit comes from a word, and what is read from a word is short enough to be told. -/
theorem keeps_tellable :
    ∀ rule ∈ rules, rule.Keeps fun request : Request => Tellable request.limit? := by
  simp only [rules, List.forall_mem_cons]
  refine ⟨?input, ?output, ?verbosity, ?conflicts, ?seconds, ?length, ?empty, ?phase, nofun⟩
  -- the only option that changes the limit; what it has read has few enough digits
  case length =>
    refine Rule.keeps_ofValue (fun _ _ => nofun) fun text n hread _ _ most hmost => ?_
    obtain rfl : n = most := Option.some.inj hmost
    exact Number.isWritable_iff.2 (Number.isReadable_of_readInteger (mapError_eq_ok_iff.1 hread))
  case input =>
    -- an option that has to be given changes what it would change otherwise
    apply Rule.keeps_always
    apply Rule.keeps_ofValue_of_forall
    exact fun _ _ hrequest => hrequest
  case empty => exact fun _ hrequest => hrequest
  all_goals
    apply Rule.keeps_ofValue_of_forall
    exact fun _ _ hrequest => hrequest

theorem tellable_of_readRequest {words : List String} (h : readRequest words = .ok request) :
    Tellable request.limit? := by
  have hstart : Tellable (Request.limit? {}) := nofun
  have hread := holds_of_read keeps_tellable hstart h
  exact hread

theorem Request.Valid.dimacsOptions_eq (h : request.Valid path) :
    request.dimacsOptions = .ofLimit (!request.rejectEmpty) request.limit? := by
  rw [Request.dimacsOptions, Options.ofLimit, Request.limit?]
  cases hgiven : request.maxClauseLength with
  | none => rfl
  | some given =>
      obtain ⟨n, rfl⟩ := h.maxClauseLength given hgiven
      rfl

theorem Request.Valid.load_eq (h : request.Valid path) :
    load request tree = (loadDimacs tree request.dimacsOptions path).mapError .load := by
  rw [load, h.input]

theorem Request.Valid.obstacle?_eq (h : request.Valid path) : request.obstacle? = none := by
  obtain ⟨n, hverbosity⟩ := h.verbosity
  have hseconds : ∃ limit, request.budgets.seconds = .ok limit := by
    rw [Request.budgets]
    cases hgiven : request.timeBudget with
    | none => exact ⟨none, rfl⟩
    | some given =>
        obtain ⟨x, rfl⟩ := h.seconds given hgiven
        exact ⟨_, rfl⟩
  obtain ⟨limit, hlimit⟩ := hseconds
  rw [Request.obstacle?, hlimit, hverbosity]

/-! ## The whole command -/

theorem exists_result_search (request : Request) (clock : Nat → Float) (F : Formula) :
    ∃ verdict, (search request clock F).result = .ok verdict := by
  let settings := request.settings clock
  have hstart : Search.Mirrors F settings.firstPhase []
      ((Solver.begin {}).start (State.along F [])) := ⟨rfl, trivial⟩
  obtain ⟨q, verdict, hrun⟩ := Search.exists_run_eq_ok hstart
  rw [State.along_nil] at hrun
  exact ⟨verdict, Solver.result_of_run hrun⟩

/-- Once the formula is loaded, the command tells the verdict of the search. -/
theorem Request.Valid.respond_of_loaded {F : Formula} (h : request.Valid path)
    (hloaded : loadDimacs tree request.dimacsOptions path = .ok F) {clock : Nat → Float}
    {verdict : Verdict} (hresult : (search request clock F).result = .ok verdict)
    (readings : Readings) :
    respond request clock readings tree =
      { out := request.banner F ++
          request.findings (search request clock F).solver.counters readings verdict,
        tree := tree,
        ending := .exit verdict.exitStatus } := by
  obtain ⟨n, hconflicts⟩ := h.conflicts
  have hload : load request tree = .ok F := by
    rw [h.load_eq, hloaded]
    rfl
  have hbudget : Search.underBudget request.budgets.conflicts (search request clock F).result =
      .ok verdict := by
    rw [hresult, Request.budgets, hconflicts]
    rfl
  have htarget : request.target? = none := by
    rw [Request.target?, h.output]
    rfl
  rw [respond, hload]
  dsimp only
  rw [h.obstacle?_eq]
  dsimp only
  rw [conclude, hbudget]
  dsimp only
  rw [deliver, htarget]

theorem Request.Valid.respond_of_not_loaded (h : request.Valid path)
    (hloaded : loadDimacs tree request.dimacsOptions path = .error e) (clock : Nat → Float)
    (readings : Readings) :
    respond request clock readings tree = reportUnloaded tree (.load e) := by
  rw [respond, h.load_eq, hloaded]
  rfl

/-- The command gives up on an error that escapes. -/
theorem Request.Valid.respond_of_escapes (h : request.Valid path)
    (hescapes : Escapes tree path (!request.rejectEmpty) request.limit? e) (clock : Nat → Float)
    (readings : Readings) :
    loadDimacs tree request.dimacsOptions path = .error e ∧
      respond request clock readings tree = { tree := tree, ending := .failed (.load e) } := by
  have hloaded : loadDimacs tree request.dimacsOptions path = .error e := by
    rw [h.dimacsOptions_eq]
    exact loadDimacs_of_escapes hescapes
  refine ⟨hloaded, ?_⟩
  rw [h.respond_of_not_loaded hloaded, reportUnloaded]
  simp only [reported?_of_escapes hescapes]
  rfl

/-- The command reports an error that does not escape. -/
theorem Request.Valid.respond_of_not_escapes (h : request.Valid path)
    (hlimit : Tellable request.limit?)
    (hloaded : loadDimacs tree request.dimacsOptions path = .error e)
    (hescapes : ¬Escapes tree path (!request.rejectEmpty) request.limit? e) (clock : Nat → Float)
    (readings : Readings) :
    respond request clock readings tree =
      { err := "PARSE ERROR! " ++ (Failure.load e).message ++ "\n",
        tree := tree,
        ending := .exit 1 } := by
  have hreported : reported? e = some (Failure.load e).message := by
    apply (escapes_or_reported hlimit _).resolve_left hescapes
    rw [← h.dimacsOptions_eq]
    exact hloaded
  rw [h.respond_of_not_loaded hloaded, reportUnloaded]
  simp only [hreported]

/-- **The command ends with an exit status unless an error of loading escapes.**  A formula that is
loaded is solved; an error that does not escape is reported, with nothing printed. -/
theorem exits_unless_escapes {words : List String} (hwords : readRequest words = .ok request)
    (hrequest : request.Valid path) (program : String) (clock : Nat → Float) (readings : Readings)
    (tree : Tree) :
    let result := report program clock readings words tree
    let loaded := loadDimacs tree request.dimacsOptions path
    let Escaping := Escapes tree path (!request.rejectEmpty) request.limit?
    result.tree = tree ∧
      ((∃ status, result.ending = .exit status) ↔ ∀ e, ¬Escaping e) ∧
      (∀ F, loaded = .ok F → result.err = "" ∧
        ∃ verdict, (search request clock F).result = .ok verdict ∧
          result.ending = .exit verdict.exitStatus) ∧
      (∀ e, loaded = .error e → ¬Escaping e → result.out = "" ∧
        result.err = "PARSE ERROR! " ++ (Failure.load e).message ++ "\n" ∧
          result.ending = .exit 1) ∧
      ∀ e, Escaping e → loaded = .error e ∧ result.out = "" ∧ result.err = "" ∧
        result.ending = .failed (.load e) := by
  intro result loaded Escaping
  have hreport : result = respond request clock readings tree := by
    simp only [result, report, hwords]
  have hescaped (e : LoadError) (h : Escaping e) := hrequest.respond_of_escapes h clock readings
  rw [hreport]
  cases hloaded : loaded with
  | ok F =>
      have hnone (e : LoadError) : ¬Escaping e := by
        intro h
        cases (hescaped e h).1.symm.trans hloaded
      obtain ⟨verdict, hresult⟩ := exists_result_search request clock F
      rw [hrequest.respond_of_loaded hloaded hresult readings]
      refine ⟨rfl, iff_of_true ⟨_, rfl⟩ hnone, ?_, nofun, fun e h => absurd h (hnone e)⟩
      intro G hG
      obtain rfl := Except.ok.inj hG
      exact ⟨rfl, verdict, hresult, rfl⟩
  | error e =>
      -- loading has one result, so at most this error can escape
      have honly (other : LoadError) (h : Escaping other) : e = other :=
        Except.error.inj (hloaded.symm.trans (hescaped other h).1)
      by_cases hescaping : Escaping e
      · rw [(hescaped e hescaping).2]
        refine ⟨rfl, iff_of_false nofun fun h => h e hescaping, nofun, ?_, ?_⟩
        · intro other hother hnot
          obtain rfl := Except.error.inj hother
          exact absurd hescaping hnot
        · intro other hother
          obtain rfl := honly other hother
          exact ⟨rfl, rfl, rfl, rfl⟩
      · have hnone (other : LoadError) : ¬Escaping other := by
          intro h
          obtain rfl := honly other h
          exact hescaping h
        rw [hrequest.respond_of_not_escapes (tellable_of_readRequest hwords) hloaded hescaping]
        refine ⟨rfl, iff_of_true ⟨1, rfl⟩ hnone, nofun, ?_, fun other h => absurd h (hnone other)⟩
        intro other hother _
        obtain rfl := Except.error.inj hother
        exact ⟨rfl, rfl, rfl⟩

/-- A file with one byte, which no text in UTF-8 has. -/
def garbledTree : Tree where
  entries := [(["in.cnf"], .file ⟨#[0xFF]⟩)]

/-- Words that ask to solve the formula in the file. -/
def garbledWords : List String :=
  ["-i", "in.cnf"]

theorem exists_valid_of_garbledWords : ∃ request, readRequest garbledWords = .ok request ∧
    request.Valid "in.cnf" ∧ request.rejectEmpty = false ∧ request.limit? = none := by
  have hgiven : ((readRequest garbledWords).toOption.map fun request =>
      (request.input, request.output, request.verbosity, request.conflictBudget)) =
      some (.value "in.cnf", none, .value 1, .value (-1)) := by
    decide +kernel
  have hrest : ((readRequest garbledWords).toOption.map fun request =>
      (request.timeBudget.isNone, request.maxClauseLength.isNone, request.rejectEmpty)) =
      some (true, true, false) := by
    decide +kernel
  obtain ⟨request, hread, hfields⟩ := Option.map_eq_some_iff.1 hgiven
  simp only [hread, Option.map_some, Option.some.injEq, Prod.mk.injEq,
    Option.isNone_iff_eq_none] at hfields hrest
  obtain ⟨hinput, houtput, hverbosity, hconflicts⟩ := hfields
  obtain ⟨htime, hlimit, hreject⟩ := hrest
  have hvalid : request.Valid "in.cnf" :=
    { input := hinput
      output := houtput
      verbosity := ⟨_, hverbosity⟩
      conflicts := ⟨_, hconflicts⟩
      seconds := fun _ hgiven => by rw [htime] at hgiven; cases hgiven
      maxClauseLength := fun _ hgiven => by rw [hlimit] at hgiven; cases hgiven }
  exact ⟨request, eq_ok_of_toOption hread, hvalid, hreject, by rw [Request.limit?, hlimit]; rfl⟩

theorem escapes_garbled :
    Escapes garbledTree "in.cnf" true none (.damaged .notText) := by
  have hbytes : ∀ s : String, (⟨#[0xFF]⟩ : ByteArray) ≠ s.toUTF8 := by
    intro s hs
    have hnone := Source.damage_ofBytes_eq_none_iff.2 ⟨s, hs⟩
    have hsome : (Source.ofBytes ⟨#[0xFF]⟩).damage.isSome = true := by decide +kernel
    rw [hnone] at hsome
    cases hsome
  have hlines : Unfinished none (Source.ofBytes ⟨#[0xFF]⟩).lines := by
    have hnil : (Source.ofBytes ⟨#[0xFF]⟩).lines = [] := by decide +kernel
    rw [hnil]
    exact ⟨nofun, .inl rfl⟩
  exact .notText ⟨#[0xFF]⟩ (by decide +kernel) rfl hbytes hlines

theorem exits_unless_escapes_garbled :
    let readings : Readings := ⟨"0", "0", "8.00", "0.001"⟩
    ∃ request, readRequest garbledWords = .ok request ∧ request.Valid "in.cnf" ∧
      (report "solve" Search.stillClock readings garbledWords garbledTree).ending =
        .failed (.load (.damaged .notText)) := by
  intro readings
  obtain ⟨request, hwords, hvalid, hreject, hlimit⟩ := exists_valid_of_garbledWords
  obtain ⟨-, -, -, -, hescaping⟩ :=
    exits_unless_escapes hwords hvalid "solve" Search.stillClock readings garbledTree
  rw [hreject, hlimit] at hescaping
  obtain ⟨-, -, -, hending⟩ := hescaping _ escapes_garbled
  exact ⟨request, hwords, hvalid, hending⟩

/-- A request may be in order, and yet the command does not end with an exit status. -/
theorem not_exits_garbled :
    (∃ request, readRequest garbledWords = .ok request ∧ request.Valid "in.cnf") ∧
      ¬∃ status, (report "solve" Search.stillClock ⟨"0", "0", "8.00", "0.001"⟩ garbledWords
        garbledTree).ending = .exit status := by
  constructor
  · obtain ⟨request, hwords, hvalid, -⟩ := exists_valid_of_garbledWords
    exact ⟨request, hwords, hvalid⟩
  · rintro ⟨status, hstatus⟩
    have hfails : (report "solve" Search.stillClock ⟨"0", "0", "8.00", "0.001"⟩ garbledWords
        garbledTree).ending.ctorIdx = 2 := by
      decide +kernel
    rw [hstatus] at hfails
    cases hfails

end TrailSat.Command.Solve
