import Mathlib.Data.List.Induction
import TrailSat.Proofs.Dimacs.Grammar

/-!
# What makes a line of a DIMACS text wrong

What makes a line wrong can be told from the line itself and the lines that count in front of it.
These tell whether there has been a problem line (`BadLine`), how many variables there are, and how
many literals the clause under construction has, which may have begun on any of them (`BadToken`).

If the lines in front have been taken in, the reader refuses a line just when it is bad
(`refuses_iff_badLine`).  They are then laid out as they should be, so a token is read behind all
tokens in front of it, those of the earlier lines included (`LaysOut.exists_spells`).

A line may be refused without a word about it, if the first token that is wrong makes a clause
longer than a limit with too many digits (`UntoldLine`, `untold_iff_untoldLine`).
-/

namespace TrailSat.Dimacs

open Text Number

variable {allowEmpty : Bool} {limit : Option Int} {numVars numClauses : Nat} {values : List Int}

/-! ## Bad tokens and bad lines -/

/-- The values behind the last zero, the last one first. -/
def openClause (values : List Int) : List Int :=
  values.reverse.takeWhile (· != 0)

/-- The tokens of the lines that are not problem lines. -/
def literalTokens (texts : List String) : List String :=
  (texts.filter (!begins 'p' ·)).flatMap words

/-- A token is wrong behind some earlier lines that count and the tokens in front of it on its own
line. -/
inductive BadToken (limit : Option Int) (earlier before : List String) (token : String) : Prop where
  | unread (hread : ∀ l, readInteger token ≠ .ok l)
  | outOfRange {l : Int} (hread : readInteger token = .ok l) {header : String}
      (hheader : header ∈ earlier) {numVars numClauses : Nat}
      (hdeclares : Declares header numVars numClauses) (hrange : numVars < l.natAbs)
  /-- The literal makes the clause under construction too long. -/
  | tooLong {l : Int} (hread : readInteger token = .ok l) (hl : l ≠ 0) {values : List Int}
      (hspells : Spells (literalTokens earlier ++ before) values) {most : Int}
      (hlimit : limit = some most) (hlong : most < (openClause values).length + 1)

/-- A line that counts is wrong behind the earlier ones. -/
inductive BadLine (limit : Option Int) (earlier : List String) (text : String) : Prop where
  /-- It is not the first problem line. -/
  | again (hproblem : begins 'p' text = true) {other : String} (hother : other ∈ earlier)
      (hbegins : begins 'p' other = true)
  /-- It is a problem line, but does not declare two numbers that are not negative. -/
  | malformed (hproblem : begins 'p' text = true)
      (hnone : ∀ numVars numClauses, ¬Declares text numVars numClauses)
  /-- It has literals, but there is no problem line in front of it. -/
  | early (hliterals : begins 'p' text = false)
      (hnone : ∀ other ∈ earlier, begins 'p' other = false)
  | token (hliterals : begins 'p' text = false) {before after : List String} {token : String}
      (hwords : words text = before ++ token :: after) (hbad : BadToken limit earlier before token)

/-- A literal in range makes the clause under construction longer than a limit that has too many
digits to be told. -/
inductive UntoldToken (limit : Option Int) (earlier before : List String) (token : String) :
    Prop where
  | intro {l : Int} (hread : readInteger token = .ok l) (hl : l ≠ 0) {header : String}
      (hheader : header ∈ earlier) {numVars numClauses : Nat}
      (hdeclares : Declares header numVars numClauses) (hrange : l.natAbs ≤ numVars)
      {values : List Int} (hspells : Spells (literalTokens earlier ++ before) values) {most : Int}
      (hlimit : limit = some most) (hlong : most < (openClause values).length + 1)
      (hdigits : isWritable most = false)

/-- What is first wrong with a line that counts cannot be told. -/
inductive UntoldLine (limit : Option Int) (earlier : List String) (text : String) : Prop where
  | intro (hliterals : begins 'p' text = false) {before after : List String} {token : String}
      (hwords : words text = before ++ token :: after)
      (hright : ∀ former other later, before = former ++ other :: later →
        ¬BadToken limit earlier former other)
      (htoken : UntoldToken limit earlier before token)

/-! ## Tokens that are refused -/

theorem current_foldl_add (sizes : Option (Nat × Nat)) (values : List Int) :
    (values.foldl Draft.add { sizes := sizes }).current = openClause values := by
  induction values using List.reverseRecOn with
  | nil => rfl
  | append_singleton values l ih =>
      rw [List.foldl_append, List.foldl_cons, List.foldl_nil, openClause, List.reverse_append]
      by_cases hl : l = 0
      · rw [hl, Draft.add_zero]
        rfl
      · have htake : (l :: values.reverse).takeWhile (· != 0) = l :: openClause values :=
          List.takeWhile_cons_of_pos (by simpa using hl)
        rw [Draft.add_of_ne hl, ih]
        exact htake.symm

theorem Spells.unique {tokens : List String} {values others : List Int} (h : Spells tokens values)
    (hothers : Spells tokens others) : values = others := by
  have hunique : Relator.RightUnique fun (token : String) (l : Int) =>
      readInteger token = .ok l := by
    intro token l m hl hm
    exact Except.ok.inj (hl.symm.trans hm)
  exact hunique.forall₂ h hothers

theorem Declares.numVars_eq {line : String} {m n : Nat} (h : Declares line numVars numClauses)
    (hother : Declares line m n) : numVars = m := by
  have heq := (readProblem_eq_ok_iff.2 h).symm.trans (readProblem_eq_ok_iff.2 hother)
  exact (Prod.mk.inj (Except.ok.inj heq)).1

theorem not_fits_iff (clause : List Int) :
    ¬Fits limit [clause] ↔ clause ≠ [] ∧ ∃ most, limit = some most ∧ most < clause.length := by
  simp only [Fits, List.forall_mem_singleton, not_forall, Int.not_le]
  constructor
  · rintro ⟨most, hlimit, hne, hlong⟩
    exact ⟨hne, most, hlimit, hlong⟩
  · rintro ⟨hne, most, hlimit, hlong⟩
    exact ⟨most, hlimit, hne, hlong⟩

/-- Tokens are refused when they are bad, if the number of variables is the declared one. -/
theorem refuses_iff_badToken {earlier before : List String} {token : String}
    (hdeclared : ∀ m, (∃ header ∈ earlier, ∃ n, Declares header m n) ↔ m = numVars)
    (hspells : Spells (literalTokens earlier ++ before) values) (sizes : Option (Nat × Nat)) :
    (∃ cause, readToken (.ofLimit allowEmpty limit) numVars
        (values.foldl Draft.add { sizes := sizes }) token = .error cause) ↔
      BadToken limit earlier before token := by
  rw [exists_error_iff]
  constructor
  · intro hrefused
    by_cases hread : ∃ l, readInteger token = .ok l
    · obtain ⟨l, hread⟩ := hread
      by_cases hrange : l.natAbs ≤ numVars
      · have hlong : ¬Fits limit [((values.foldl Draft.add { sizes := sizes }).add l).current] :=
          fun hfits => hrefused _ (readToken_eq_ok_iff.2 ⟨l, hread, hrange, hfits, rfl⟩)
        -- a zero ends the clause and starts an empty one, which always fits
        have hl : l ≠ 0 := by
          rintro rfl
          exact hlong (fits_nil limit)
        rw [Draft.add_of_ne hl, current_foldl_add] at hlong
        obtain ⟨-, most, hlimit, hless⟩ := (not_fits_iff _).1 hlong
        exact .tooLong hread hl hspells hlimit hless
      · obtain ⟨header, hheader, n, hdeclares⟩ := (hdeclared numVars).2 rfl
        exact .outOfRange hread hheader hdeclares (Nat.lt_of_not_le hrange)
    · exact .unread fun l hl => hread ⟨l, hl⟩
  · intro hbad next hok
    obtain ⟨m, hm, hrange, hfits, -⟩ := readToken_eq_ok_iff.1 hok
    cases hbad with
    | unread hread => exact hread m hm
    | outOfRange hread hheader hdeclares hless =>
        obtain rfl := Except.ok.inj (hread.symm.trans hm)
        obtain rfl := (hdeclared _).1 ⟨_, hheader, _, hdeclares⟩
        exact absurd hrange (Nat.not_le.2 hless)
    | tooLong hread hl hothers hlimit hless =>
        obtain rfl := Except.ok.inj (hread.symm.trans hm)
        obtain rfl := hspells.unique hothers
        rw [Draft.add_of_ne hl, current_foldl_add] at hfits
        exact (not_fits_iff _).2 ⟨List.cons_ne_nil _ _, _, hlimit, hless⟩ hfits

/-- What is wrong with a token cannot be told when it is an untold one. -/
theorem untold_iff_untoldToken {earlier before : List String} {token : String}
    (hdeclared : ∀ m, (∃ header ∈ earlier, ∃ n, Declares header m n) ↔ m = numVars)
    (hspells : Spells (literalTokens earlier ++ before) values) (sizes : Option (Nat × Nat)) :
    readToken (.ofLimit allowEmpty limit) numVars
        (values.foldl Draft.add { sizes := sizes }) token = .error .unwritable ↔
      UntoldToken limit earlier before token := by
  rw [readToken_eq_unwritable_iff, current_foldl_add]
  constructor
  · rintro ⟨l, most, hread, hl, hrange, hlimit, hlong, hdigits⟩
    obtain ⟨header, hheader, n, hdeclares⟩ := (hdeclared numVars).2 rfl
    exact .intro hread hl hheader hdeclares hrange hspells hlimit hlong hdigits
  · rintro ⟨hread, hl, hheader, hdeclares, hrange, hothers, hlimit, hlong, hdigits⟩
    obtain rfl := (hdeclared _).1 ⟨_, hheader, _, hdeclares⟩
    obtain rfl := hspells.unique hothers
    exact ⟨_, _, hread, hl, hrange, hlimit, hlong, hdigits⟩

/-! ## Lines that are refused -/

variable {front : List String} {text : String}

theorem LaysOut.spells (h : LaysOut front numVars numClauses values) :
    Spells (literalTokens (keptLines front)) values := by
  obtain ⟨header, body, hkept, hheader, hbody, hspells⟩ := h
  obtain ⟨s, rfl⟩ := exists_strip_of_mem_keptLines (hkept ▸ List.mem_cons_self)
  have hfilter : (strip s :: body).filter (!begins 'p' ·) = body := by
    rw [List.filter_cons_of_neg (by simp [begins_of_declares hheader]), List.filter_eq_self]
    intro line hline
    simp [hbody line hline]
  rw [literalTokens, hkept, hfilter]
  exact hspells

theorem LaysOut.declared_iff (h : LaysOut front numVars numClauses values) (m : Nat) :
    (∃ header ∈ keptLines front, ∃ n, Declares header m n) ↔ m = numVars := by
  obtain ⟨header, body, hkept, hheader, hbody, -⟩ := h
  constructor
  · rintro ⟨other, hother, n, hdeclares⟩
    obtain ⟨s, rfl⟩ := exists_strip_of_mem_keptLines hother
    rcases List.mem_cons.1 (hkept ▸ hother) with rfl | hmem
    · exact hdeclares.numVars_eq hheader
    · -- no other line than the first one begins like a problem line
      have hbegins := begins_of_declares hdeclares
      rw [hbody _ hmem] at hbegins
      cases hbegins
  · rintro rfl
    exact ⟨header, hkept ▸ List.mem_cons_self, numClauses, hheader⟩

theorem LaysOut.exists_problem (h : LaysOut front numVars numClauses values) :
    ∃ header ∈ keptLines front, begins 'p' header = true := by
  obtain ⟨header, hheader, n, hdeclares⟩ := (h.declared_iff numVars).2 rfl
  obtain ⟨s, rfl⟩ := exists_strip_of_mem_keptLines hheader
  exact ⟨strip s, hheader, begins_of_declares hdeclares⟩

theorem refuses_iff_badLine_start :
    (∃ cause, readKept (.ofLimit allowEmpty limit) {} text = .error cause) ↔
      BadLine limit [] text := by
  rw [exists_error_iff]
  constructor
  · intro hrefused
    cases hbegins : begins 'p' text with
    | false => exact .early hbegins nofun
    | true =>
        refine .malformed hbegins fun m n hdeclares => ?_
        exact hrefused _ (readKept_start_eq_ok_iff.2 ⟨hbegins, m, n, hdeclares, rfl⟩)
  · intro hbad next hok
    obtain ⟨hbegins, m, n, hdeclares, -⟩ := readKept_start_eq_ok_iff.1 hok
    cases hbad with
    | again _ hother => cases hother
    | malformed _ hnone => exact hnone m n hdeclares
    | early hliterals | token hliterals =>
        rw [hbegins] at hliterals
        cases hliterals

theorem LaysOut.exists_spells (h : LaysOut front numVars numClauses values)
    (hrange : ∀ l ∈ values, l.natAbs ≤ numVars) (hfits : Fits limit (clausesOf values))
    {before : List String} {former : Draft}
    (hbefore : before.foldlM (readToken (.ofLimit allowEmpty limit) numVars)
      (values.foldl Draft.add { sizes := some (numVars, numClauses) }) = .ok former) :
    ∃ spelled, Spells (literalTokens (keptLines front) ++ before) spelled ∧
      former = spelled.foldl Draft.add { sizes := some (numVars, numClauses) } := by
  have hread : (literalTokens (keptLines front) ++ before).foldlM
      (readToken (.ofLimit allowEmpty limit) numVars) { sizes := some (numVars, numClauses) } =
        .ok former := by
    rw [List.foldlM_append]
    refine bind_eq_ok_iff.2 ⟨_, ?_, hbefore⟩
    exact (foldlM_readToken_eq_ok_iff (Draft.sound_start _)).2
      ⟨values, h.spells, hrange, hfits, rfl⟩
  obtain ⟨spelled, hspelled, -, -, rfl⟩ :=
    (foldlM_readToken_eq_ok_iff (Draft.sound_start _)).1 hread
  exact ⟨spelled, hspelled, rfl⟩

/-- Tokens are refused when one of them is bad behind those in front of it. -/
theorem LaysOut.refuses_tokens_iff (hlays : LaysOut front numVars numClauses values)
    (hrange : ∀ l ∈ values, l.natAbs ≤ numVars) (hfits : Fits limit (clausesOf values))
    {tokens : List String} :
    (∃ cause, tokens.foldlM (readToken (.ofLimit allowEmpty limit) numVars)
        (values.foldl Draft.add { sizes := some (numVars, numClauses) }) = .error cause) ↔
      ∃ before token after, tokens = before ++ token :: after ∧
        BadToken limit (keptLines front) before token := by
  constructor
  · rintro ⟨cause, hcause⟩
    obtain ⟨before, token, after, former, htokens, hbefore, htoken⟩ :=
      foldlM_eq_error_iff.1 hcause
    obtain ⟨spelled, hspelled, rfl⟩ := hlays.exists_spells hrange hfits hbefore
    have hbad := (refuses_iff_badToken hlays.declared_iff hspelled _).1 ⟨cause, htoken⟩
    exact ⟨before, token, after, htokens, hbad⟩
  · rintro ⟨before, token, after, rfl, hbad⟩
    rw [exists_error_iff]
    intro next hok
    obtain ⟨former, after, hbefore, htoken⟩ := exists_of_foldlM_eq_ok hok
    obtain ⟨spelled, hspelled, rfl⟩ := hlays.exists_spells hrange hfits hbefore
    obtain ⟨cause, hcause⟩ := (refuses_iff_badToken hlays.declared_iff hspelled _).2 hbad
    rw [htoken] at hcause
    cases hcause

theorem refuses_iff_badLine_of_laysOut (hlays : LaysOut front numVars numClauses values)
    (hrange : ∀ l ∈ values, l.natAbs ≤ numVars) (hfits : Fits limit (clausesOf values)) :
    (∃ cause, readKept (.ofLimit allowEmpty limit)
        (values.foldl Draft.add { sizes := some (numVars, numClauses) }) text = .error cause) ↔
      BadLine limit (keptLines front) text := by
  have hsizes : (values.foldl Draft.add { sizes := some (numVars, numClauses) }).sizes =
      some (numVars, numClauses) := Draft.sizes_foldl_add values
  obtain ⟨header, hheader, hproblem⟩ := hlays.exists_problem
  cases hbegins : begins 'p' text with
  | true =>
      exact ⟨fun _ => .again hbegins hheader hproblem,
        fun _ => ⟨_, readKept_of_duplicate hbegins hsizes⟩⟩
  | false =>
      rw [readKept_of_literals hbegins hsizes, hlays.refuses_tokens_iff hrange hfits]
      constructor
      · rintro ⟨before, token, after, hwords, hbad⟩
        exact .token hbegins hwords hbad
      · intro hbad
        cases hbad with
        | again hother | malformed hother =>
            rw [hbegins] at hother
            cases hother
        | early _ hnone =>
            rw [hnone header hheader] at hproblem
            cases hproblem
        | token _ hwords hbad => exact ⟨_, _, _, hwords, hbad⟩

theorem untold_iff_untoldLine_of_laysOut (hlays : LaysOut front numVars numClauses values)
    (hrange : ∀ l ∈ values, l.natAbs ≤ numVars) (hfits : Fits limit (clausesOf values)) :
    readKept (.ofLimit allowEmpty limit)
        (values.foldl Draft.add { sizes := some (numVars, numClauses) }) text =
          .error .unwritable ↔
      UntoldLine limit (keptLines front) text := by
  have hsizes : (values.foldl Draft.add { sizes := some (numVars, numClauses) }).sizes =
      some (numVars, numClauses) := Draft.sizes_foldl_add values
  constructor
  · intro h
    have hbegins := ((blamesText_or_tokens_of_readKept h).resolve_left nofun).1
    rw [readKept_of_literals hbegins hsizes] at h
    obtain ⟨before, token, after, former, hwords, hbefore, htoken⟩ := foldlM_eq_error_iff.1 h
    refine .intro hbegins hwords (fun first other later heq hbad => ?_) ?_
    · -- the tokens in front have been taken in
      obtain ⟨cause, hcause⟩ :=
        (hlays.refuses_tokens_iff hrange hfits).2 ⟨first, other, later, heq, hbad⟩
      rw [hbefore] at hcause
      cases hcause
    · obtain ⟨spelled, hspelled, rfl⟩ := hlays.exists_spells hrange hfits hbefore
      exact (untold_iff_untoldToken hlays.declared_iff hspelled _).1 htoken
  · rintro @⟨hbegins, before, after, token, hwords, hright, huntold⟩
    rw [readKept_of_literals hbegins hsizes, hwords]
    cases hbefore : before.foldlM (readToken (.ofLimit allowEmpty limit) numVars)
        (values.foldl Draft.add { sizes := some (numVars, numClauses) }) with
    | error cause =>
        obtain ⟨first, other, later, heq, hbad⟩ :=
          (hlays.refuses_tokens_iff hrange hfits).1 ⟨cause, hbefore⟩
        exact absurd hbad (hright first other later heq)
    | ok former =>
        obtain ⟨spelled, hspelled, rfl⟩ := hlays.exists_spells hrange hfits hbefore
        refine foldlM_eq_error_iff.2 ⟨before, token, after, _, rfl, hbefore, ?_⟩
        exact (untold_iff_untoldToken hlays.declared_iff hspelled _).2 huntold

/-- Without a problem line no line has counted. -/
theorem keptLines_eq_nil_of_sizes {reached : Draft}
    (h : (keptLines front).foldlM (readKept (.ofLimit allowEmpty limit)) {} = .ok reached)
    (hsizes : reached.sizes = none) : keptLines front = [] := by
  cases hkept : keptLines front with
  | nil => rfl
  | cons header body => exact absurd hsizes (sizes_ne_none_of_foldlM (hkept ▸ h))

/-- **The reader refuses a line just when it is bad.** -/
theorem refuses_iff_badLine {reached : Draft}
    (h : (keptLines front).foldlM (readKept (.ofLimit allowEmpty limit)) {} = .ok reached) :
    (∃ cause, readKept (.ofLimit allowEmpty limit) reached text = .error cause) ↔
      BadLine limit (keptLines front) text := by
  cases hsizes : reached.sizes with
  | none =>
      have hnil := keptLines_eq_nil_of_sizes h hsizes
      rw [hnil] at h ⊢
      obtain rfl := Except.ok.inj h
      exact refuses_iff_badLine_start
  | some sizes =>
      obtain ⟨values, hlays, hrange, hfits, rfl⟩ := foldlM_keptLines_eq_ok_iff.1 ⟨h, hsizes⟩
      exact refuses_iff_badLine_of_laysOut hlays hrange hfits

/-- **The reader cannot tell what is wrong with a line just when it is an untold one.** -/
theorem untold_iff_untoldLine {reached : Draft}
    (h : (keptLines front).foldlM (readKept (.ofLimit allowEmpty limit)) {} = .ok reached) :
    readKept (.ofLimit allowEmpty limit) reached text = .error .unwritable ↔
      UntoldLine limit (keptLines front) text := by
  cases hsizes : reached.sizes with
  | none =>
      have hnil := keptLines_eq_nil_of_sizes h hsizes
      -- a token is looked at only behind a problem line
      constructor
      · intro hrefused
        obtain ⟨-, numVars, numClauses, hsome, -⟩ :=
          (blamesText_or_tokens_of_readKept hrefused).resolve_left nofun
        rw [hsizes] at hsome
        cases hsome
      · rintro ⟨-, -, -, ⟨-, -, hheader, -⟩⟩
        rw [hnil] at hheader
        cases hheader
  | some sizes =>
      obtain ⟨values, hlays, hrange, hfits, rfl⟩ := foldlM_keptLines_eq_ok_iff.1 ⟨h, hsizes⟩
      exact untold_iff_untoldLine_of_laysOut hlays hrange hfits

end TrailSat.Dimacs
