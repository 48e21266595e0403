import TrailSat.Proofs.Dimacs.Values
import TrailSat.Proofs.Text.Strip

/-!
# The lines of a DIMACS text that count

Blank lines and comments are skipped, and the end mark cuts off all that is behind it.  What is left
are the `keptLines`, and only they matter, apart from the number of a wrong line: reading the lines
comes to a fold over the kept ones (`readLines_eq`).

The first of these has to be a problem line (`readKept_start_eq_ok_iff`), no other one may be, and
the others are taken in token by token (`foldlM_readKept_eq_ok_iff`).  When a line is not accepted
the text is at fault, unless that cannot be told (`blamesText_of_readKept`).
-/

namespace TrailSat.Dimacs

open Text Number

/-! ## The lines that count -/

/-- Whether a text begins with the given character. -/
def begins (c : Char) (text : String) : Bool :=
  text.toList.head? == some c

/-- Whether a line, without the blanks around it, is empty or a comment. -/
def isSkipped (text : String) : Bool :=
  text.toList.isEmpty || begins 'c' text || begins 'C' text

/-- The lines that count, without the blanks around them: those before the end mark that are
neither blank nor comments. -/
def keptLines (lines : List String) : List String :=
  ((lines.map strip).filter (!isSkipped ·)).takeWhile (!begins '%' ·)

theorem exists_strip_of_mem_keptLines {lines : List String} {text : String}
    (h : text ∈ keptLines lines) : ∃ s, text = strip s := by
  have hfilter := List.mem_of_mem_filter (List.takeWhile_subset _ h)
  obtain ⟨s, -, rfl⟩ := List.mem_map.1 hfilter
  exact ⟨s, rfl⟩

/-- What a line that counts is for. -/
def keptKind (text : String) : Line :=
  if begins 'p' text then .problem text else .literals text

theorem ofText_eq (line : String) :
    Line.ofText line =
      if isSkipped (strip line) then .skipped
      else if begins '%' (strip line) then .endMark
      else keptKind (strip line) := by
  cases hchars : (strip line).toList with
  | nil => simp [Line.ofText, isSkipped, hchars]
  | cons first rest => simp [Line.ofText, isSkipped, begins, keptKind, hchars]

theorem keptLines_cons (line : String) (rest : List String) :
    keptLines (line :: rest) =
      if isSkipped (strip line) then keptLines rest
      else if begins '%' (strip line) then []
      else strip line :: keptLines rest := by
  rw [keptLines, List.map_cons, List.filter_cons]
  cases isSkipped (strip line) with
  | true => rfl
  | false =>
      simp only [Bool.not_false, if_true, List.takeWhile_cons]
      cases begins '%' (strip line) <;> rfl

/-- Takes in a line that counts. -/
def readKept (options : Options) (draft : Draft) (text : String) : Except Cause Draft :=
  readLine options draft (keptKind text)

/-- Lines are taken in by what the first of them is. -/
theorem readLines_cons (options : Options) (number : Nat) (draft : Draft) (line : String)
    (rest : List String) :
    readLines options number draft (line :: rest) =
      if isSkipped (strip line) then readLines options (number + 1) draft rest
      else if begins '%' (strip line) then .ok (draft, true)
      else (readKept options draft (strip line)).mapError (·.atLine (number + 1)) >>=
        fun next => readLines options (number + 1) next rest := by
  rw [readLines]
  by_cases hskip : isSkipped (strip line) = true
  · have hkind : Line.ofText line = .skipped := by rw [ofText_eq, if_pos hskip]
    simp only [hkind, if_pos hskip, reduceCtorEq, if_false]
    rfl
  · by_cases hend : begins '%' (strip line) = true
    · have hkind : Line.ofText line = .endMark := by
        rw [ofText_eq, if_neg hskip, if_pos hend]
      simp only [hkind, if_neg hskip, if_pos hend, if_true]
    · have hkind : Line.ofText line = keptKind (strip line) := by
        rw [ofText_eq, if_neg hskip, if_neg hend]
      -- only a percent sign makes a line the end mark
      have hne : keptKind (strip line) ≠ .endMark := by
        rw [keptKind]
        split <;> exact nofun
      simp only [hkind, if_neg hskip, if_neg hend, if_neg hne]
      rw [← readKept]
      cases readKept options draft (strip line) with
      | error cause => rfl
      | ok next => rfl

/-- Only the lines that count matter, apart from the number of a wrong line. -/
theorem readLines_eq (options : Options) (number : Nat) (draft : Draft) (lines : List String) :
    ((readLines options number draft lines).mapError ParseError.cause).map Prod.fst =
      (keptLines lines).foldlM (readKept options) draft := by
  induction lines generalizing number draft with
  | nil => rfl
  | cons line rest ih =>
      rw [readLines_cons, keptLines_cons]
      split
      · exact ih _ _
      · split
        · rfl
        · rw [List.foldlM_cons]
          cases readKept options draft (strip line) with
          | error cause => rfl
          | ok next => exact ih _ _

/-! ## Problem lines -/

/-- A line is a problem line that declares the given sizes. -/
def Declares (line : String) (numVars numClauses : Nat) : Prop :=
  ∃ vars clauses, words line = ["p", "cnf", vars, clauses] ∧
    readInteger vars = .ok (numVars : Int) ∧ readInteger clauses = .ok (numClauses : Int)

theorem readProblem_eq_ok_iff {text : String} {numVars numClauses : Nat} :
    readProblem text = .ok (numVars, numClauses) ↔ Declares text numVars numClauses := by
  rw [readProblem]
  constructor
  · intro h
    split at h
    · next vars clauses hwords =>
      split at h
      · next m n hvars hclauses =>
        split at h
        · cases h
        · next hsign =>
          obtain ⟨hm, hn⟩ := Prod.mk.inj (Except.ok.inj h)
          refine ⟨vars, clauses, hwords, ?_, ?_⟩
          · rw [hvars, ← hm]
            exact congrArg Except.ok (by omega)
          · rw [hclauses, ← hn]
            exact congrArg Except.ok (by omega)
      · cases h
    · cases h
  · rintro ⟨vars, clauses, hwords, hvars, hclauses⟩
    have hsign : ¬((numVars : Int) < 0 ∨ (numClauses : Int) < 0) := by omega
    simp only [hwords, hvars, hclauses, if_neg hsign, Int.toNat_natCast]

theorem blamesText_of_readProblem {text : String} {cause : Cause}
    (h : readProblem text = .error cause) : cause.blamesText = true := by
  rw [readProblem] at h
  split at h
  · split at h
    · split at h
      · cases h
        rfl
      · cases h
    · cases h
      rfl
  · cases h
    rfl

/-- A problem line begins with a `p`, if it does not begin with a blank. -/
theorem begins_of_declares {s : String} {numVars numClauses : Nat}
    (h : Declares (strip s) numVars numClauses) : begins 'p' (strip s) = true := by
  obtain ⟨vars, clauses, hwords, -⟩ := h
  rw [begins, head?_of_words hwords]
  rfl

/-! ## Taking in the lines that count -/

variable {allowEmpty : Bool} {limit : Option Int} {numVars numClauses : Nat} {draft next : Draft}

theorem readKept_of_problem {options : Options} {text : String} (hbegins : begins 'p' text = true)
    (hsizes : draft.sizes = none) :
    readKept options draft text =
      (readProblem text).map fun sizes => { draft with sizes := some sizes } := by
  simp only [readKept, keptKind, hbegins, if_true, readLine, hsizes]

theorem readKept_of_duplicate {options : Options} {text : String} {sizes : Nat × Nat}
    (hbegins : begins 'p' text = true) (hsizes : draft.sizes = some sizes) :
    readKept options draft text = .error .duplicateProblemLine := by
  simp only [readKept, keptKind, hbegins, if_true, readLine, hsizes]

theorem readKept_of_literals {options : Options} {text : String} (hbegins : begins 'p' text = false)
    (hsizes : draft.sizes = some (numVars, numClauses)) :
    readKept options draft text = (words text).foldlM (readToken options numVars) draft := by
  simp only [readKept, keptKind, hbegins, readLine, hsizes]
  rfl

/-- A line that is not accepted is at fault as a whole, or one of its tokens is not accepted. -/
theorem blamesText_or_tokens_of_readKept {text : String} {cause : Cause}
    (h : readKept (.ofLimit allowEmpty limit) draft text = .error cause) :
    cause.blamesText = true ∨
      begins 'p' text = false ∧ ∃ numVars numClauses, draft.sizes = some (numVars, numClauses) ∧
        (words text).foldlM (readToken (.ofLimit allowEmpty limit) numVars) draft =
          .error cause := by
  cases hbegins : begins 'p' text with
  | true =>
      left
      cases hsizes : draft.sizes with
      | none =>
          rw [readKept_of_problem hbegins hsizes] at h
          cases hproblem : readProblem text with
          | error other =>
              rw [hproblem] at h
              cases h
              exact blamesText_of_readProblem hproblem
          | ok sizes =>
              rw [hproblem] at h
              cases h
      | some sizes =>
          rw [readKept_of_duplicate hbegins hsizes] at h
          cases h
          rfl
  | false =>
      cases hsizes : draft.sizes with
      | none =>
          simp only [readKept, keptKind, hbegins, readLine, hsizes] at h
          cases h
          exact .inl rfl
      | some sizes =>
          obtain ⟨numVars, numClauses⟩ := sizes
          rw [readKept_of_literals hbegins hsizes] at h
          exact .inr ⟨rfl, numVars, numClauses, rfl, h⟩

/-- A line that is not accepted is at fault itself, unless it cannot be told what is wrong. -/
theorem blamesText_of_readKept {text : String} {cause : Cause}
    (h : readKept (.ofLimit allowEmpty limit) draft text = .error cause) :
    cause.blamesText = true ∨ cause = .unwritable := by
  rcases blamesText_or_tokens_of_readKept h with hblames | ⟨-, numVars, numClauses, -, htokens⟩
  · exact .inl hblames
  · obtain ⟨former, token, -, htoken⟩ := exists_of_foldlM_eq_error htokens
    exact blamesText_of_readToken htoken

/-- What is wrong can be told if the limit can. -/
theorem not_tellable_of_readKept {text : String}
    (h : readKept (.ofLimit allowEmpty limit) draft text = .error .unwritable) :
    ¬Tellable limit := by
  obtain ⟨-, numVars, numClauses, -, htokens⟩ :=
    (blamesText_or_tokens_of_readKept h).resolve_left nofun
  obtain ⟨former, token, -, htoken⟩ := exists_of_foldlM_eq_error htokens
  obtain ⟨l, most, -, -, -, hlimit, -, hdigits⟩ := readToken_eq_unwritable_iff.1 htoken
  intro htell
  rw [htell most hlimit] at hdigits
  cases hdigits

/-- The first line that counts has to be a problem line. -/
theorem readKept_start_eq_ok_iff {options : Options} {text : String} :
    readKept options {} text = .ok next ↔
      begins 'p' text = true ∧
        ∃ numVars numClauses, Declares text numVars numClauses ∧
          next = { sizes := some (numVars, numClauses) } := by
  cases hbegins : begins 'p' text with
  | true =>
      rw [readKept_of_problem hbegins rfl]
      simp only [← readProblem_eq_ok_iff, true_and]
      cases readProblem text with
      | error cause => simp [Except.map]
      | ok sizes =>
          obtain ⟨numVars, numClauses⟩ := sizes
          simp [Except.map, eq_comm]
  | false =>
      simp only [readKept, keptKind, hbegins, readLine]
      exact ⟨nofun, nofun⟩

theorem sizes_of_foldlM_readToken {tokens : List String}
    (h : tokens.foldlM (readToken (.ofLimit allowEmpty limit) numVars) draft = .ok next) :
    next.sizes = draft.sizes := by
  induction tokens generalizing draft with
  | nil =>
      obtain rfl := Except.ok.inj h
      rfl
  | cons token rest ih =>
      rw [List.foldlM_cons, bind_eq_ok_iff] at h
      obtain ⟨after, hafter, hrest⟩ := h
      obtain ⟨l, -, -, -, rfl⟩ := readToken_eq_ok_iff.1 hafter
      rw [ih hrest, Draft.sizes_add]

/-- Behind the problem line, the lines are accepted when no other problem line is among them and
their tokens are. -/
theorem foldlM_readKept_eq_ok_iff {body : List String}
    (hsizes : draft.sizes = some (numVars, numClauses)) :
    body.foldlM (readKept (.ofLimit allowEmpty limit)) draft = .ok next ↔
      (∀ line ∈ body, begins 'p' line = false) ∧
        (body.flatMap words).foldlM (readToken (.ofLimit allowEmpty limit) numVars) draft =
          .ok next := by
  induction body generalizing draft with
  | nil => simp
  | cons line rest ih =>
      rw [List.foldlM_cons, bind_eq_ok_iff, List.forall_mem_cons, List.flatMap_cons,
        List.foldlM_append, bind_eq_ok_iff]
      cases hbegins : begins 'p' line with
      | true =>
          -- a second problem line is refused as a whole
          simp [readKept_of_duplicate hbegins hsizes]
      | false =>
          rw [readKept_of_literals hbegins hsizes]
          constructor
          · rintro ⟨after, hafter, hrest⟩
            have hkept := (sizes_of_foldlM_readToken hafter).trans hsizes
            obtain ⟨hbody, htokens⟩ := (ih hkept).1 hrest
            exact ⟨⟨rfl, hbody⟩, after, hafter, htokens⟩
          · rintro ⟨⟨-, hbody⟩, after, hafter, htokens⟩
            have hkept := (sizes_of_foldlM_readToken hafter).trans hsizes
            exact ⟨after, hafter, (ih hkept).2 ⟨hbody, htokens⟩⟩

/-- What an accepted problem line declares is still known behind the lines that follow it. -/
theorem sizes_ne_none_of_foldlM {header : String} {body : List String}
    (h : (header :: body).foldlM (readKept (.ofLimit allowEmpty limit)) {} = .ok draft) :
    draft.sizes ≠ none := by
  rw [List.foldlM_cons, bind_eq_ok_iff] at h
  obtain ⟨after, hafter, hrest⟩ := h
  obtain ⟨-, numVars, numClauses, -, rfl⟩ := readKept_start_eq_ok_iff.1 hafter
  obtain ⟨-, htokens⟩ := (foldlM_readKept_eq_ok_iff rfl).1 hrest
  rw [sizes_of_foldlM_readToken htokens]
  exact Option.some_ne_none _

end TrailSat.Dimacs
