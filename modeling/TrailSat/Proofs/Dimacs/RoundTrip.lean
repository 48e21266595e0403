import TrailSat.Dimacs.Writer
import TrailSat.Proofs.Dimacs.Grammar
import TrailSat.Proofs.Number.Decimal
import TrailSat.Proofs.Text.Lines

/-!
# Reading back a written formula

A formula is written as lines: a comment with its name, if it has one (`nameLines`), and then the
problem line and a line for each clause (`countedLines`).  The comment is skipped whatever the name
is, as long as it stays on its line, and the other lines are made of words that no end mark or
comment begins with.  So these are the lines that count (`keptLines_textLines`), their tokens spell
the literals of the clauses with a zero behind each, and cutting at the zeros gives the clauses
(`clausesOf_closedValues`).  Hence the text describes the clauses, and reading gives them back
(`reads_written`).
-/

namespace TrailSat.Dimacs

open Text Number

variable {F : Formula}

/-! ## The written lines -/

/-- The words of the problem line. -/
def problemWords (F : Formula) : List String :=
  ["p", "cnf", toString F.numVars, toString F.numClauses]

/-- The words of the line of a clause. -/
def clauseWords (clause : List Int) : List String :=
  (clause ++ [0]).map toString

/-- The line of a clause, without its end. -/
def clauseText (clause : List Int) : String :=
  " ".intercalate (clauseWords clause)

/-- The lines that count in the written formula. -/
def countedLines (F : Formula) : List String :=
  " ".intercalate (problemWords F) :: F.clauses.map clauseText

/-- The comment that names the formula, if there is one. -/
def nameLines (F : Formula) : List String :=
  match F.name with
  | none => []
  | some name => if name.isEmpty then [] else ["c " ++ name]

theorem write_eq_ended (F : Formula) : write F = ended (nameLines F ++ countedLines F) := by
  have hname : commentLine F = ended (nameLines F) := by
    rw [commentLine, nameLines]
    cases F.name with
    | none => rfl
    | some name =>
        dsimp only
        split
        · rfl
        · simp [ended]
  have hproblem : problemLine F = " ".intercalate (problemWords F) ++ "\n" := by
    apply String.toList_inj.1
    simp [problemLine, problemWords]
  have hclauses : String.join (F.clauses.map clauseLine) =
      ended (F.clauses.map clauseText) := by
    rw [ended, List.map_map]
    rfl
  have hcounted : problemLine F ++ String.join (F.clauses.map clauseLine) =
      ended (countedLines F) := by
    apply String.toList_inj.1
    rw [hproblem, hclauses, countedLines, toList_ended_cons]
    simp
  rw [write, String.append_assoc, hcounted, hname, ended_append]

/-! ## What counts of them -/

theorem toString_natCast (n : Nat) : toString (n : Int) = toString n := by
  apply String.toList_inj.1
  rw [toList_toString, if_neg (by omega), Int.natAbs_natCast]
  exact Nat.toList_repr.symm

theorem isWord_natToString (n : Nat) : IsWord (toString n) := by
  rw [← toString_natCast]
  exact isWord_toString n

theorem isWord_of_mem_problemWords {t : String} (ht : t ∈ problemWords F) : IsWord t := by
  simp only [problemWords, List.mem_cons, List.not_mem_nil, or_false] at ht
  rcases ht with rfl | rfl | rfl | rfl
  · exact .of_all (by decide) (by decide)
  · exact .of_all (by decide) (by decide)
  · exact isWord_natToString F.numVars
  · exact isWord_natToString F.numClauses

theorem isWord_of_mem_clauseWords {clause : List Int} {t : String} (ht : t ∈ clauseWords clause) :
    IsWord t := by
  obtain ⟨l, -, rfl⟩ := List.mem_map.1 ht
  exact isWord_toString l

theorem exists_clauseWords_eq_cons (clause : List Int) :
    ∃ (l : Int) (rest : List String), clauseWords clause = toString l :: rest := by
  cases clause with
  | nil => exact ⟨0, [], rfl⟩
  | cons l more => exact ⟨l, _, rfl⟩

theorem begins_intercalate {t : String} (ht : IsWord t) (rest : List String) (c : Char) :
    begins c (" ".intercalate (t :: rest)) = begins c t := by
  have hspaced := spaced_eq_cons t rest
  rw [spaced_cons] at hspaced
  rw [begins, begins, ← (List.cons.inj hspaced).2]
  cases hchars : t.toList with
  | nil => exact absurd hchars ht.ne_nil
  | cons first more => rfl

/-- A printed integer begins with a digit or a minus sign. -/
theorem not_begins_toString (l : Int) {c : Char} (hdigit : c.isDigit = false) (hminus : c ≠ '-') :
    begins c (toString l) = false := by
  rw [begins, beq_eq_false_iff_ne]
  intro h
  rcases isDigit_or_eq_minus (List.mem_of_mem_head? h) with hc | hc
  · rw [hdigit] at hc
    cases hc
  · exact hminus hc

/-- A line made of words is kept as it is, if it is neither a comment nor the end mark. -/
structure IsPlain (line : String) : Prop where
  strip_eq : strip line = line
  counts : isSkipped line = false
  goesOn : begins '%' line = false

theorem isPlain_intercalate {t : String} {rest : List String} (h : ∀ u ∈ t :: rest, IsWord u)
    (hcomment : begins 'c' t = false ∧ begins 'C' t = false) (hend : begins '%' t = false) :
    IsPlain (" ".intercalate (t :: rest)) := by
  have ht : IsWord t := h t List.mem_cons_self
  refine ⟨strip_intercalate h, ?_, (begins_intercalate ht rest '%').trans hend⟩
  have hne : (" ".intercalate (t :: rest)).toList.isEmpty = false := by
    have hspaced := spaced_eq_cons t rest
    rw [spaced_cons] at hspaced
    rw [← (List.cons.inj hspaced).2, List.isEmpty_eq_false_iff]
    exact List.append_ne_nil_of_left_ne_nil ht.ne_nil _
  rw [isSkipped, hne, begins_intercalate ht, begins_intercalate ht, hcomment.1, hcomment.2]
  rfl

theorem isPlain_of_mem_countedLines {line : String} (h : line ∈ countedLines F) :
    IsPlain line := by
  rcases List.mem_cons.1 h with rfl | h
  · exact isPlain_intercalate (fun t ht => isWord_of_mem_problemWords ht) (by decide) (by decide)
  · obtain ⟨clause, -, rfl⟩ := List.mem_map.1 h
    have hwords : ∀ t ∈ clauseWords clause, IsWord t := fun t ht => isWord_of_mem_clauseWords ht
    -- also the line of an empty clause has a first word, the zero
    obtain ⟨l, rest, hcons⟩ := exists_clauseWords_eq_cons clause
    rw [hcons] at hwords
    rw [clauseText, hcons]
    exact isPlain_intercalate hwords
      ⟨not_begins_toString l rfl (by decide), not_begins_toString l rfl (by decide)⟩
      (not_begins_toString l rfl (by decide))

theorem keptLines_of_isPlain {texts : List String} (h : ∀ line ∈ texts, IsPlain line) :
    keptLines texts = texts := by
  induction texts with
  | nil => rfl
  | cons line rest ih =>
      obtain ⟨⟨hstrip, hcounts, hgoesOn⟩, hrest⟩ := List.forall_mem_cons.1 h
      rw [keptLines_cons, hstrip, hcounts, hgoesOn, ih hrest]
      rfl

/-- Whatever blanks end a comment, it still begins with the comment mark. -/
theorem keptLines_comment {line : String} (h : begins 'c' line = true) (rest : List String) :
    keptLines (line :: rest) = keptLines rest := by
  have hhead : (strip line).toList.head? = some 'c' :=
    head?_strip (by simpa [begins] using h) (by decide)
  have hskip : isSkipped (strip line) = true := by
    simp [isSkipped, begins, hhead]
  rw [keptLines_cons, if_pos hskip]

/-- The name of a formula never counts. -/
theorem keptLines_nameLines (F : Formula) (rest : List String) :
    keptLines (nameLines F ++ rest) = keptLines rest := by
  rw [nameLines]
  cases F.name with
  | none => rfl
  | some name =>
      dsimp only
      split
      · rfl
      · exact keptLines_comment (by simp [begins]) rest

theorem isLine_of_mem_countedLines {line : String} (h : line ∈ countedLines F) : IsLine line := by
  rcases List.mem_cons.1 h with rfl | h
  · exact isLine_intercalate fun t ht => isWord_of_mem_problemWords ht
  · obtain ⟨clause, -, rfl⟩ := List.mem_map.1 h
    exact isLine_intercalate fun t ht => isWord_of_mem_clauseWords ht

/-- The text of a formula is made of lines, if its name is a line. -/
theorem isLine_of_mem_textLines (hname : ∀ name, F.name = some name → IsLine name) {line : String}
    (h : line ∈ nameLines F ++ countedLines F) : IsLine line := by
  rcases List.mem_append.1 h with h | h
  · rw [nameLines] at h
    cases hF : F.name with
    | none => simp [hF] at h
    | some name =>
        obtain ⟨-, rfl⟩ : name.isEmpty = false ∧ line = "c " ++ name := by simpa [hF] using h
        intro c hc
        rcases List.mem_append.1 (by rwa [String.toList_append] at hc) with hc | hc
        · have hmark : IsLine "c " := .of_all (by decide)
          exact hmark c hc
        · exact hname name hF c hc
  · exact isLine_of_mem_countedLines h

theorem keptLines_concat_empty (texts : List String) :
    keptLines (texts ++ [""]) = keptLines texts := by
  have hskip : isSkipped (strip "") = true := by decide
  simp [keptLines, hskip]

theorem keptLines_countedLines (F : Formula) : keptLines (countedLines F) = countedLines F :=
  keptLines_of_isPlain fun _ hline => isPlain_of_mem_countedLines hline

/-- Only the problem line and the lines of the clauses count. -/
theorem keptLines_textLines (F : Formula) :
    keptLines (nameLines F ++ countedLines F) = countedLines F := by
  rw [keptLines_nameLines, keptLines_countedLines]

/-! ## What they spell -/

/-- The values that the clauses are written as: a zero stands behind each of them. -/
def closedValues (clauses : List (List Int)) : List Int :=
  clauses.flatMap fun clause => clause ++ [0]

theorem clausesOf_closedValues {clauses : List (List Int)} (h : ∀ clause ∈ clauses, 0 ∉ clause) :
    clausesOf (closedValues clauses) = clauses := by
  induction clauses with
  | nil => rfl
  | cons clause rest ih =>
      obtain ⟨hclause, hrest⟩ := List.forall_mem_cons.1 h
      have hcons : closedValues (clause :: rest) = clause ++ 0 :: closedValues rest := by
        simp [closedValues]
      rw [hcons, clausesOf_append_zero hclause, ih hrest]

theorem natAbs_le_of_mem_closedValues {l : Int} (h : l ∈ closedValues F.clauses) :
    l.natAbs ≤ F.numVars := by
  obtain ⟨clause, hclause, hl⟩ := List.mem_flatMap.1 h
  rcases List.mem_append.1 hl with hl | hl
  · exact (F.inRange clause hclause l hl).2
  · rw [List.mem_singleton.1 hl]
    exact Nat.zero_le _

theorem spells_toString {values : List Int} (h : ∀ l ∈ values, IsReadable l) :
    Spells (values.map toString) values := by
  rw [Spells, List.forall₂_map_left_iff, List.forall₂_same]
  exact fun l hl => readInteger_toString (h l hl)

theorem declares_problemWords (hcount : IsReadable F.numClauses) :
    Declares (" ".intercalate (problemWords F)) F.numVars F.numClauses := by
  have hvars : IsReadable F.numVars := F.isReadable_of_le (Nat.le_refl _)
  refine ⟨_, _, words_intercalate fun t ht => isWord_of_mem_problemWords ht, ?_, ?_⟩
  · rw [← toString_natCast, readInteger_toString hvars]
  · rw [← toString_natCast, readInteger_toString hcount]

theorem laysOut_of_keptLines {lines : List String} (hkept : keptLines lines = countedLines F)
    (hcount : IsReadable F.numClauses) :
    LaysOut lines F.numVars F.numClauses (closedValues F.clauses) := by
  refine ⟨_, _, hkept, declares_problemWords hcount, ?_, ?_⟩
  · intro line hline
    obtain ⟨clause, -, rfl⟩ := List.mem_map.1 hline
    obtain ⟨l, rest, hcons⟩ := exists_clauseWords_eq_cons clause
    rw [clauseText, hcons, begins_intercalate (isWord_toString l)]
    exact not_begins_toString l rfl (by decide)
  · have htokens : (F.clauses.map clauseText).flatMap words =
        (closedValues F.clauses).map toString := by
      rw [List.flatMap_map, closedValues, List.map_flatMap]
      exact List.flatMap_congr fun clause _ =>
        words_intercalate fun t ht => isWord_of_mem_clauseWords ht
    rw [htokens]
    exact spells_toString fun l hl => F.isReadable_of_le (natAbs_le_of_mem_closedValues hl)

/-! ## Reading back -/

variable {allowEmpty : Bool} {limit : Option Int} {lines : List String}

theorem parse_of_keptLines (hkept : keptLines lines = countedLines F)
    (hcount : IsReadable F.numClauses) (hfits : Fits limit F.clauses)
    (hempty : allowEmpty = false → [] ∉ F.clauses) (name : Option String) :
    parse (.ofLimit allowEmpty limit) name lines = .ok { F with name := name } := by
  have hspelled : clausesOf (closedValues F.clauses) = F.clauses :=
    clausesOf_closedValues fun clause hclause hzero => (F.inRange clause hclause 0 hzero).1 rfl
  have hdescribes : Describes allowEmpty limit lines F.numVars F.numClauses F.clauses :=
    ⟨⟨closedValues F.clauses, laysOut_of_keptLines hkept hcount,
      fun l hl => natAbs_le_of_mem_closedValues hl, hspelled⟩, rfl, hfits, hempty⟩
  exact (parse_of_describes hdescribes name).trans (dif_pos F.hasRoom)

/-- **Reading undoes writing.**  Whatever a formula is called, as long as its name stays on a line,
the lines of its text are read as the same formula, and under the same name this is written as the
same text.  It makes no difference whether the text is cut only at line feeds or at all line
ends. -/
theorem reads_written (hname : ∀ name, F.name = some name → IsLine name)
    (hcount : IsReadable F.numClauses)
    (hlimit : ∀ most, limit = some most → ∀ clause ∈ F.clauses, clause.length ≤ most)
    (hempty : allowEmpty = false → [] ∉ F.clauses) (name : Option String) :
    ∃ G : Formula, (G.numVars = F.numVars ∧ G.numClauses = F.numClauses ∧ G.clauses = F.clauses) ∧
      parse (.ofLimit allowEmpty limit) name (cutAtFeeds (write F)) = .ok G ∧
      parse (.ofLimit allowEmpty limit) name (Text.lines (write F).toList) = .ok G ∧
      write { G with name := F.name } = write F := by
  have hfits : Fits limit F.clauses :=
    fun most hmost clause hclause _ => hlimit most hmost clause hclause
  have hlines : ∀ line ∈ nameLines F ++ countedLines F, IsLine line :=
    fun line hline => isLine_of_mem_textLines hname hline
  refine ⟨{ F with name := name }, ⟨rfl, rfl, rfl⟩, ?_, ?_, rfl⟩
  · refine parse_of_keptLines ?_ hcount hfits hempty name
    -- a cut at the feeds leaves an empty piece behind the last line, which does not count
    rw [write_eq_ended, cutAtFeeds_ended hlines, keptLines_concat_empty, keptLines_textLines]
  · refine parse_of_keptLines ?_ hcount hfits hempty name
    rw [write_eq_ended, lines_ended hlines, keptLines_textLines]

/-- A formula over more variables than occur in it, with an empty clause and under a name that looks
like an end mark and a problem line. -/
def disguised : Formula where
  name := some "% p cnf 1"
  numVars := 5
  clauses := [[], [-1, 1, -1], [2]]
  inRange := by decide
  hasRoom := by decide

theorem reads_written_disguised :
    (∀ name, disguised.name = some name → IsLine name) ∧ IsReadable disguised.numClauses ∧
      (∀ clause ∈ disguised.clauses, clause.length ≤ (3 : Int)) ∧
      ∃ G : Formula, G.clauses = [[], [-1, 1, -1], [2]] ∧
        parse (.ofLimit true (some 3)) none
          (cutAtFeeds "c % p cnf 1\np cnf 5 3\n0\n-1 1 -1 0\n2 0\n") = .ok G := by
  have hname : ∀ name, disguised.name = some name → IsLine name := by
    rintro name ⟨⟩
    exact .of_all (by decide)
  have hcount : IsReadable disguised.numClauses := isReadable_of_lt (by decide)
  have hlimit : ∀ clause ∈ disguised.clauses, clause.length ≤ (3 : Int) := by decide
  have htext : write disguised = "c % p cnf 1\np cnf 5 3\n0\n-1 1 -1 0\n2 0\n" := by
    decide +kernel
  have hmost : ∀ most, some (3 : Int) = some most →
      ∀ clause ∈ disguised.clauses, clause.length ≤ most := by
    rintro most ⟨⟩
    exact hlimit
  have hempty : true = false → [] ∉ disguised.clauses := nofun
  obtain ⟨G, ⟨-, -, hclauses⟩, hparse, -, -⟩ := reads_written hname hcount hmost hempty none
  exact ⟨hname, hcount, hlimit, G, hclauses, htext ▸ hparse⟩

end TrailSat.Dimacs
