import TrailSat.Flat
import TrailSat.Proofs.Dimacs.RoundTrip

/-!
# Reading flat text

Flat text is a row of tokens without any lines, and the clauses that it spells are again the row of
its values cut at the zeros.  But only the token `0` closes a clause.  So a row of tokens is read as
`clausesOf` says if every zero is written this way (`readTokens_of_spells`), and this is the only
way in which clauses without zeros can be read (`exists_spells_of_readTokens`).

What is written is such a row, hence reading gives it back (`readClauses_write`).  As clauses are
written without line ends, and without blanks at the ends, this is also true of the lines of a file
(`problems_lines_ended`).
-/

namespace TrailSat.Flat

open Text Number Dimacs

variable {current : List Int} {clauses : List (List Int)} {tokens : List String}

/-! ## Tokens -/

/-- The integers that tokens spell, one each, when every zero is written as `0`. -/
def SpellsFlat (tokens : List String) (values : List Int) : Prop :=
  List.Forall₂ (fun token l => readInteger token = .ok l ∧ (l = 0 → token = "0")) tokens values

theorem readInteger_zero : readInteger "0" = .ok 0 :=
  readInteger_toString (n := 0) (isReadable_of_lt (by decide))

theorem SpellsFlat.spells {values : List Int} (h : SpellsFlat tokens values) :
    Spells tokens values :=
  h.imp fun _ _ hread => hread.1

theorem spellsFlat_toString {values : List Int} (h : ∀ l ∈ values, IsReadable l) :
    SpellsFlat (values.map toString) values := by
  rw [SpellsFlat, List.forall₂_map_left_iff, List.forall₂_same]
  intro l hl
  refine ⟨readInteger_toString (h l hl), ?_⟩
  rintro rfl
  rfl

/-- The literals read already are among those of the clauses. -/
theorem mem_of_readTokens (h : readTokens current tokens = .ok clauses) {l : Int}
    (hl : l ∈ current) : ∃ clause ∈ clauses, l ∈ clause := by
  induction tokens generalizing current clauses with
  | nil =>
      have hne : current.isEmpty = false := List.isEmpty_eq_false_iff_exists_mem.2 ⟨l, hl⟩
      rw [readTokens, hne] at h
      obtain rfl := Except.ok.inj h
      exact ⟨current.reverse, List.mem_cons_self, List.mem_reverse.2 hl⟩
  | cons token rest ih =>
      rw [readTokens] at h
      split at h
      · cases hrest : readTokens [] rest with
        | error e =>
            rw [hrest] at h
            cases h
        | ok more =>
            rw [hrest] at h
            obtain rfl := Except.ok.inj h
            exact ⟨current.reverse, List.mem_cons_self, List.mem_reverse.2 hl⟩
      · split at h
        · cases h
        · exact ih h (List.mem_cons_of_mem _ hl)

/-- **Tokens are cut at their zeros**, if these are all written as `0`. -/
theorem readTokens_of_spells (hzero : 0 ∉ current) {values : List Int}
    (h : SpellsFlat tokens values) :
    readTokens current tokens = .ok (clausesOf (current.reverse ++ values)) := by
  unfold SpellsFlat at h
  induction h generalizing current with
  | nil =>
      have hfront : 0 ∉ current.reverse := by simpa using hzero
      rw [readTokens, List.append_nil, clausesOf_of_not_mem hfront, List.isEmpty_reverse]
  | @cons token l rest values hfirst _ ih =>
      have hfront : 0 ∉ current.reverse := by simpa using hzero
      rw [readTokens]
      by_cases hclose : token = "0"
      · obtain rfl : l = 0 := by
          rw [hclose, readInteger_zero] at hfirst
          exact (Except.ok.inj hfirst.1).symm
        rw [if_pos (beq_iff_eq.2 hclose), ih List.not_mem_nil,
          clausesOf_append_zero hfront]
        rfl
      · have hl : l ≠ 0 := fun hl => hclose (hfirst.2 hl)
        have hmore : 0 ∉ l :: current := by simp [hzero, Ne.symm hl]
        rw [if_neg (by simpa using hclose), hfirst.1]
        dsimp only
        rw [ih hmore, List.reverse_cons, List.append_assoc]
        rfl

/-- There is no other way to read clauses without zeros. -/
theorem exists_spells_of_readTokens (h : readTokens current tokens = .ok clauses)
    (hclauses : ∀ clause ∈ clauses, 0 ∉ clause) : ∃ values, SpellsFlat tokens values := by
  induction tokens generalizing current clauses with
  | nil => exact ⟨[], .nil⟩
  | cons token rest ih =>
      rw [readTokens] at h
      by_cases hclose : token = "0"
      · rw [if_pos (beq_iff_eq.2 hclose)] at h
        cases hrest : readTokens [] rest with
        | error e =>
            rw [hrest] at h
            cases h
        | ok more =>
            rw [hrest] at h
            obtain rfl := Except.ok.inj h
            obtain ⟨values, hvalues⟩ := ih hrest (List.forall_mem_cons.1 hclauses).2
            exact ⟨0 :: values, .cons ⟨hclose ▸ readInteger_zero, fun _ => hclose⟩ hvalues⟩
      · rw [if_neg (by simpa using hclose)] at h
        cases hread : readInteger token with
        | error e =>
            rw [hread] at h
            cases h
        | ok l =>
            rw [hread] at h
            obtain ⟨values, hvalues⟩ := ih h hclauses
            -- a zero that does not close the clause would be one of its literals
            have hl : l ≠ 0 := by
              rintro rfl
              obtain ⟨clause, hclause, hmem⟩ := mem_of_readTokens h List.mem_cons_self
              exact hclauses clause hclause hmem
            exact ⟨l :: values, .cons ⟨hread, fun hzero => absurd hzero hl⟩ hvalues⟩

theorem exists_spells_of_readClauses {line : String} (h : readClauses line = .ok clauses)
    (hclauses : ∀ clause ∈ clauses, 0 ∉ clause) :
    ∃ values, SpellsFlat (words line) values ∧ clausesOf values = clauses := by
  obtain ⟨values, hvalues⟩ := exists_spells_of_readTokens h hclauses
  have hread := readTokens_of_spells List.not_mem_nil hvalues
  exact ⟨values, hvalues, Except.ok.inj (hread.symm.trans h)⟩

/-! ## Writing -/

/-- The tokens of clauses. -/
def writtenTokens (clauses : List (List Int)) : List String :=
  (closedValues clauses).map toString

theorem isWord_of_mem_writtenTokens {t : String} (ht : t ∈ writtenTokens clauses) : IsWord t := by
  obtain ⟨l, -, rfl⟩ := List.mem_map.1 ht
  exact isWord_toString l

/-- Joining rows of words that are joined themselves. -/
theorem intercalate_map_intercalate {rows : List (List String)} (h : ∀ row ∈ rows, row ≠ []) :
    " ".intercalate (rows.map (" ".intercalate ·)) = " ".intercalate rows.flatten := by
  have hspaced : spaced (rows.map (" ".intercalate ·)) = spaced rows.flatten := by
    rw [spaced, spaced, List.flatMap_map, List.flatten_eq_flatMap, List.flatMap_assoc]
    refine List.flatMap_congr fun row hrow => ?_
    obtain ⟨t, rest, rfl⟩ := List.exists_cons_of_ne_nil (h row hrow)
    exact (spaced_eq_cons t rest).symm
  apply String.toList_inj.1
  cases rows with
  | nil => rfl
  | cons row more =>
      obtain ⟨t, rest, rfl⟩ := List.exists_cons_of_ne_nil (h row List.mem_cons_self)
      rw [List.map_cons, spaced_eq_cons, List.flatten_cons, List.cons_append, spaced_eq_cons]
        at hspaced
      exact (List.cons.inj hspaced).2

theorem write_eq_intercalate (clauses : List (List Int)) :
    write clauses = " ".intercalate (writtenTokens clauses) := by
  have hrows : ∀ row ∈ clauses.map clauseWords, row ≠ [] := by
    intro row hrow
    obtain ⟨clause, -, rfl⟩ := List.mem_map.1 hrow
    simp [clauseWords]
  have hflatten : (clauses.map clauseWords).flatten = writtenTokens clauses := by
    rw [writtenTokens, closedValues, List.map_flatMap, ← List.flatMap_def]
    rfl
  rw [← hflatten, ← intercalate_map_intercalate hrows, List.map_map, write]
  simp only [Function.comp_def, clauseWords, List.map_append]
  rfl

theorem words_write (clauses : List (List Int)) :
    words (write clauses) = writtenTokens clauses := by
  rw [write_eq_intercalate, words_intercalate fun t ht => isWord_of_mem_writtenTokens ht]

/-- **Reading gives back what is written.** -/
theorem readClauses_write (h : ∀ clause ∈ clauses, ∀ l ∈ clause, l ≠ 0 ∧ IsReadable l) :
    readClauses (write clauses) = .ok clauses := by
  have hvalues : ∀ l ∈ closedValues clauses, IsReadable l := by
    intro l hl
    obtain ⟨clause, hclause, hl⟩ := List.mem_flatMap.1 hl
    rcases List.mem_append.1 hl with hl | hl
    · exact (h clause hclause l hl).2
    · rw [List.mem_singleton.1 hl]
      exact isReadable_of_lt (by decide)
  rw [readClauses, words_write, writtenTokens,
    readTokens_of_spells List.not_mem_nil (spellsFlat_toString hvalues), List.reverse_nil,
    List.nil_append, clausesOf_closedValues fun clause hclause hzero =>
      (h clause hclause 0 hzero).1 rfl]

/-- A formula is read whose number of variables is the greatest that occurs. -/
theorem readFormula_write {allowEmpty : Bool} {numVars : Nat}
    (hsound : Formula.Sound allowEmpty numVars clauses.length clauses)
    (hgreatest : Formula.greatestVar clauses = numVars) (hroom : numVars < Value.rowBound)
    (name : Option String) :
    readFormula name allowEmpty (write clauses) =
      .ok ⟨name, numVars, clauses, hsound.inRange, hroom⟩ := by
  have hread : readClauses (write clauses) = .ok clauses := by
    apply readClauses_write
    intro clause hclause l hl
    obtain ⟨hne, hle⟩ := hsound.inRange clause hclause l hl
    exact ⟨hne, isReadable_of_lt (by omega)⟩
  have hformula : Formula.ofClauseList name clauses allowEmpty =
      .ok ⟨name, numVars, clauses, hsound.inRange, hroom⟩ := by
    rw [Formula.ofClauseList, hgreatest, Formula.ofClauses_of_sound hsound, dif_pos hroom]
  unfold readFormula
  rw [hread]
  dsimp only
  rw [hformula]

/-! ## Files -/

theorem strip_write (clauses : List (List Int)) : strip (write clauses) = write clauses := by
  rw [write_eq_intercalate, strip_intercalate fun t ht => isWord_of_mem_writtenTokens ht]

theorem isLine_write (clauses : List (List Int)) : IsLine (write clauses) := by
  rw [write_eq_intercalate]
  exact isLine_intercalate fun t ht => isWord_of_mem_writtenTokens ht

theorem write_ne_empty (h : clauses ≠ []) : write clauses ≠ "" := by
  intro hempty
  have hwords := words_write clauses
  have hnone : words (" ".intercalate []) = [] := words_intercalate nofun
  obtain ⟨clause, rest, rfl⟩ := List.exists_cons_of_ne_nil h
  rw [hempty, ← String.intercalate_nil, hnone] at hwords
  simp [writtenTokens, closedValues] at hwords

/-- **The problems of a file are those written to it**, if each has a clause. -/
theorem problems_lines_ended {problems : List (List (List Int))}
    (h : ∀ clauses ∈ problems, clauses ≠ []) :
    Flat.problems (lines (ended (problems.map write)).toList) = problems.map write := by
  have hlines : ∀ line ∈ problems.map write, IsLine line := by
    intro line hline
    obtain ⟨clauses, -, rfl⟩ := List.mem_map.1 hline
    exact isLine_write clauses
  rw [lines_ended hlines, Flat.problems, List.map_map]
  have hstrip : strip ∘ write = write := funext strip_write
  rw [hstrip, List.filter_eq_self]
  intro line hline
  obtain ⟨clauses, hclauses, rfl⟩ := List.mem_map.1 hline
  simpa using write_ne_empty (h clauses hclauses)

end TrailSat.Flat
