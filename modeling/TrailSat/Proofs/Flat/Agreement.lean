import TrailSat.Proofs.Flat.Reading
import TrailSat.Proofs.Text.Strip

/-!
# Flat text and DIMACS text agree

The tokens of a problem in flat text may be laid out as the body of a DIMACS text: cut into lines
anywhere, with blank lines and comments between them (`CutInto`).  Behind the problem line with the
sizes of the formula, this is read as the formula that the flat text is read as
(`parse_of_readFormula`).

The two readers find the same clauses although they treat zeros differently: a zero that is not
written as `0` would be a literal in flat text, and no formula has it.  The DIMACS reader finds the
tokens again because none of them begins as a comment, an end mark or a problem line does
(`keptLines_of_cutInto`).
-/

namespace TrailSat.Flat

open Text Number Dimacs

variable {tokens body : List String} {line : String}

/-! ## Layout -/

/-- Tokens are laid out on lines, in order, with any lines between them that are skipped. -/
inductive CutInto : (tokens lines : List String) → Prop
  | nil : CutInto [] []
  | skip {tokens rest : List String} (line : String) (hskip : isSkipped (strip line) = true)
      (h : CutInto tokens rest) : CutInto tokens (line :: rest)
  | row {tokens rest : List String} (line : String) (h : CutInto tokens rest) :
      CutInto (words line ++ tokens) (line :: rest)

/-- Whether a character is one that no integer begins with. -/
def isForeign (c : Char) : Bool :=
  !isMargin c && !isDigit c && c != '-' && c != '+' && c != '_'

theorem not_begins_of_readInteger {t : String} {l : Int} (h : readInteger t = .ok l) {c : Char}
    (hc : isForeign c = true) : begins c t = false := by
  rw [begins, beq_eq_false_iff_ne]
  intro hhead
  obtain ⟨⟨⟨⟨hmargin, hdigit⟩, hminus⟩, hplus⟩, hscore⟩ := by simpa [isForeign] using hc
  rw [readInteger_of_head? hhead hmargin hdigit ⟨hminus, hplus, hscore⟩] at h
  cases h

/-- A line of tokens begins as the first of them does. -/
theorem begins_of_words {t : String} {rest : List String} (h : words line = t :: rest) (c : Char) :
    begins c (strip line) = begins c t := by
  rw [← words_strip] at h
  rw [begins, begins, head?_of_words h]

/-- **The tokens are those on the lines that count.** -/
theorem keptLines_of_cutInto (h : CutInto tokens body)
    (hread : ∀ t ∈ tokens, ∃ l, readInteger t = .ok l) :
    (keptLines body).flatMap words = tokens ∧
      ∀ line ∈ keptLines body, begins 'p' line = false := by
  induction h with
  | nil => exact ⟨rfl, nofun⟩
  | skip line hskip _ ih =>
      rw [keptLines_cons, if_pos hskip]
      exact ih hread
  | @row tokens rest line _ ih =>
      have hlater := ih fun t ht => hread t (List.mem_append_right _ ht)
      rw [keptLines_cons]
      cases hwords : words line with
      | nil =>
          have hskip : isSkipped (strip line) = true := by
            rw [isSkipped, strip_eq_of_no_words hwords]
            rfl
          rw [if_pos hskip]
          exact hlater
      -- the line begins like its first token, which is an integer, so it counts
      | cons t more =>
          obtain ⟨l, hl⟩ := hread t (by simp [hwords])
          have hforeign {c : Char} (hc : isForeign c = true) : begins c (strip line) = false := by
            rw [begins_of_words hwords]
            exact not_begins_of_readInteger hl hc
          have hne : (strip line).toList.isEmpty = false := by
            rw [List.isEmpty_eq_false_iff]
            intro hnil
            rw [← words_strip, words, hnil, wordsOfChars_of_nil rfl] at hwords
            cases hwords
          have hkept : isSkipped (strip line) = false := by
            rw [isSkipped, hne, hforeign rfl, hforeign rfl]
            rfl
          rw [if_neg (by simp [hkept]), if_neg (by simp [hforeign (c := '%') rfl]),
            List.flatMap_cons, words_strip, hwords, hlater.1, List.forall_mem_cons]
          exact ⟨rfl, hforeign rfl, hlater.2⟩

/-! ## The same formula -/

variable {allowEmpty : Bool} {name : Option String} {F : Formula}

theorem clauses_of_readFormula (h : readFormula name allowEmpty line = .ok F) :
    readClauses line = .ok F.clauses ∧ (allowEmpty = false → [] ∉ F.clauses) := by
  unfold readFormula at h
  cases hread : readClauses line with
  | error e =>
      rw [hread] at h
      cases h
  | ok clauses =>
      rw [hread] at h
      dsimp only at h
      cases hformula : Formula.ofClauseList name clauses allowEmpty with
      | error flaw =>
          rw [hformula] at h
          cases h
      | ok G =>
          rw [hformula] at h
          obtain rfl := Except.ok.inj h
          obtain ⟨⟨-, -, rfl⟩, hsound⟩ := Formula.ofClauses_eq_ok_iff.1 hformula
          exact ⟨rfl, hsound.nonempty⟩

/-- The problem line for a formula. -/
def header (F : Formula) : String :=
  "p cnf " ++ toString F.numVars ++ " " ++ toString F.numClauses

theorem header_eq_intercalate (F : Formula) :
    header F = " ".intercalate (problemWords F) := by
  apply String.toList_inj.1
  simp [header, problemWords]

/-- The problem line counts. -/
theorem keptLines_header (F : Formula) (body : List String) :
    keptLines (header F :: body) = header F :: keptLines body := by
  have hplain : IsPlain (header F) := by
    rw [header_eq_intercalate]
    exact isPlain_of_mem_countedLines List.mem_cons_self
  rw [keptLines_cons, hplain.strip_eq, hplain.counts, hplain.goesOn]
  rfl

theorem describes_of_cutInto (h : readFormula name allowEmpty line = .ok F)
    (hcut : CutInto (words line) body) (hcount : IsReadable F.numClauses) :
    Describes allowEmpty none (header F :: body) F.numVars F.numClauses F.clauses := by
  obtain ⟨hread, hnonempty⟩ := clauses_of_readFormula h
  have hzero : ∀ clause ∈ F.clauses, 0 ∉ clause :=
    fun clause hclause hmem => (F.inRange clause hclause 0 hmem).1 rfl
  obtain ⟨values, hflat, hvalues⟩ := exists_spells_of_readClauses hread hzero
  have hspells := hflat.spells
  obtain ⟨hkept, hbody⟩ := keptLines_of_cutInto hcut fun t ht => hspells.exists_of_mem ht
  have hheader : Declares (header F) F.numVars F.numClauses := by
    rw [header_eq_intercalate]
    exact declares_problemWords hcount
  have hlays : LaysOut (header F :: body) F.numVars F.numClauses values := by
    refine ⟨header F, keptLines body, keptLines_header F body, hheader, hbody, ?_⟩
    rw [hkept]
    exact hspells
  have hrange : ∀ l ∈ values, l.natAbs ≤ F.numVars := by
    intro l hl
    by_cases hne : l = 0
    · rw [hne]
      exact Nat.zero_le _
    · -- every other value is a literal of the formula
      obtain ⟨clause, hclause, hmem⟩ := exists_mem_clausesOf hl hne
      exact (F.inRange clause (hvalues ▸ hclause) l hmem).2
  constructor
  · exact ⟨values, hlays, hrange, hvalues⟩
  · rfl
  · exact nofun
  · exact hnonempty

/-- **The DIMACS reader reads a problem in flat text as the same formula**, however its tokens are
laid out.  No number with more than `maxDigits` digits can be printed and read, so the clauses must
not be as many as that. -/
theorem parse_of_readFormula (h : readFormula name allowEmpty line = .ok F)
    (hcut : CutInto (words line) body) (hcount : IsReadable F.numClauses)
    (other : Option String) :
    parse { allowEmpty := allowEmpty } other
        (("p cnf " ++ toString F.numVars ++ " " ++ toString F.numClauses) :: body) =
      .ok { F with name := other } := by
  have hdescribes := describes_of_cutInto h hcut hcount
  have hparse := parse_of_describes hdescribes other
  rw [dif_pos F.hasRoom] at hparse
  exact hparse

/-- A formula with an empty clause. -/
def mixed : Formula where
  name := none
  numVars := 10
  clauses := [[], [10, 2], [-3]]
  inRange := by decide
  hasRoom := by decide

/-- The tokens have a plus sign, an underscore, a digit of another script and a blank that is not
ASCII, and the last clause is not closed. -/
theorem parse_of_readFormula_mixed :
    readFormula none true "\t0 +1_0 ٢\u00a00 -3" = .ok mixed ∧
      CutInto (words "\t0 +1_0 ٢\u00a00 -3") ["c +7 0", "0 +1_0", "", "  C", "٢ 0\t-3\n"] ∧
      IsReadable mixed.numClauses ∧
      parse {} (some "mixed") ["p cnf 10 3", "c +7 0", "0 +1_0", "", "  C", "٢ 0\t-3\n"] =
        .ok { mixed with name := some "mixed" } := by
  have hread : readFormula none true "\t0 +1_0 ٢\u00a00 -3" = .ok mixed :=
    eq_ok_of_toOption (by decide +kernel)
  have htokens : words "\t0 +1_0 ٢\u00a00 -3" = words "0 +1_0" ++ (words "٢ 0\t-3\n" ++ []) := by
    decide +kernel
  have hcut : CutInto (words "\t0 +1_0 ٢\u00a00 -3")
      ["c +7 0", "0 +1_0", "", "  C", "٢ 0\t-3\n"] := by
    rw [htokens]
    apply CutInto.skip _ (by decide)
    apply CutInto.row
    apply CutInto.skip _ (by decide)
    apply CutInto.skip _ (by decide)
    apply CutInto.row
    exact .nil
  have hcount : IsReadable mixed.numClauses := isReadable_of_lt (by decide)
  have hheader : "p cnf " ++ toString mixed.numVars ++ " " ++ toString mixed.numClauses =
      "p cnf 10 3" := by
    decide +kernel
  have hparse := parse_of_readFormula hread hcut hcount (some "mixed")
  rw [hheader] at hparse
  exact ⟨hread, hcut, hcount, hparse⟩

end TrailSat.Flat
