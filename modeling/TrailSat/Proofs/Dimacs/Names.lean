import TrailSat.Proofs.Dimacs.RoundTrip

/-!
# Names and lines

The name of a formula is written as it is.  Where it breaks the line, what comes behind the break
is no comment any more, and may hide or replace the formula.

A text that ends with a line feed is cut into lines no matter what follows it (`cutLines_feed`), so
the problem line and the lines of the clauses are always there, behind those that the name makes up.
The text is in order if there is one such line, and that is so if the name stays on its line
(`inOrder_write_iff`).  It may end in a carriage return then, which becomes a part of the line
end.
-/

namespace TrailSat.Dimacs

open Text Number

variable {F : Formula}

/-! ## Lines that break -/

/-- Characters that make up a single line when a line feed is put behind them. -/
def StayOnLine (cs : List Char) : Prop :=
  '\n' ∉ cs ∧ '\r' ∉ cs.dropLast

theorem stayOnLine_cons {c : Char} {cs : List Char} (hfeed : c ≠ '\n') (hreturn : c ≠ '\r') :
    StayOnLine (c :: cs) ↔ StayOnLine cs := by
  cases cs with
  | nil => simp [StayOnLine, hfeed.symm]
  | cons d cs => simp [StayOnLine, hfeed.symm, hreturn.symm]

/-- A line feed behind the characters ends a line, which goes on from the one under construction,
and what follows is cut afresh.  There are further lines only if something before it ends one. -/
def CutAfresh (done : List String) (current cs : List Char) : Prop :=
  ∃ (line : String) (more : List String), (more = [] ↔ StayOnLine cs) ∧
    current.reverse <+: line.toList ∧
    ∀ rest, cutLines done current (cs ++ '\n' :: rest) = cutLines (more ++ line :: done) [] rest

theorem CutAfresh.of_last {done : List String} {current cs : List Char}
    (hcut : ∀ rest, cutLines done current (cs ++ '\n' :: rest) =
      cutLines (String.ofList current.reverse :: done) [] rest)
    (hstays : StayOnLine cs) : CutAfresh done current cs := by
  refine ⟨String.ofList current.reverse, [], iff_of_true rfl hstays, ⟨[], ?_⟩, hcut⟩
  rw [List.append_nil, String.toList_ofList]

theorem CutAfresh.of_break {done : List String} {current cs left : List Char}
    (hleft : CutAfresh (String.ofList current.reverse :: done) [] left)
    (hcut : ∀ rest, cutLines done current (cs ++ '\n' :: rest) =
      cutLines (String.ofList current.reverse :: done) [] (left ++ '\n' :: rest))
    (hbreak : ¬StayOnLine cs) : CutAfresh done current cs := by
  obtain ⟨line, more, -, -, hrest⟩ := hleft
  refine ⟨String.ofList current.reverse, more ++ [line], ?_, ⟨[], ?_⟩, fun rest => ?_⟩
  · exact iff_of_false (List.append_ne_nil_of_right_ne_nil _ (List.cons_ne_nil _ _)) hbreak
  · rw [List.append_nil, String.toList_ofList]
  · rw [hcut, hrest, List.append_assoc, List.singleton_append]

theorem cutLines_feed (done : List String) (current cs : List Char) :
    CutAfresh done current cs := by
  fun_induction cutLines done current cs with
  | case1 done current =>
      refine .of_last (fun rest => ?_) ⟨List.not_mem_nil, List.not_mem_nil⟩
      rw [List.nil_append, cutLines]
  | case2 done current left ih =>
      refine .of_break ih (fun rest => ?_) fun h => h.1 (by simp)
      rw [List.cons_append, List.cons_append, cutLines]
  | case3 done current left hreturn ih =>
      cases left with
      | nil =>
          -- the carriage return becomes a part of the line end
          refine .of_last (fun rest => ?_) ⟨by decide, List.not_mem_nil⟩
          rw [List.cons_append, List.nil_append, cutLines]
      | cons c left =>
          refine .of_break ih (fun rest => ?_) fun h => h.2 (by simp)
          rw [List.cons_append, List.cons_append, cutLines]
          rintro more h
          exact hreturn left (by rw [(List.cons.inj h).1])
  | case4 done current left ih =>
      refine .of_break ih (fun rest => ?_) fun h => h.1 (by simp)
      rw [List.cons_append, cutLines]
  | case5 done current c left hpair hreturn hfeed ih =>
      obtain ⟨line, more, hmore, hline, hrest⟩ := ih
      refine ⟨line, more, hmore.trans (stayOnLine_cons hfeed hreturn).symm, ?_, fun rest => ?_⟩
      · rw [List.reverse_cons] at hline
        exact (List.prefix_append _ _).trans hline
      · have hplain : ∀ d ∈ [c], d ≠ '\n' ∧ d ≠ '\r' := by
          simpa using ⟨hfeed, hreturn⟩
        exact (cutLines_append hplain done current _).trans (hrest rest)

/-- The lines that a comment makes up, whatever other lines follow it. -/
theorem exists_lines_comment (name : String) {texts : List String}
    (htexts : ∀ t ∈ texts, IsLine t) :
    ∃ (line : String) (more : List String), (more = [] ↔ StayOnLine name.toList) ∧
      begins 'c' line = true ∧
      Text.lines (ended (("c " ++ name) :: texts)).toList = line :: (more ++ texts) := by
  obtain ⟨line, more, hmore, hline, hrest⟩ := cutLines_feed [] [' ', 'c'] name.toList
  have hcut : cutLines [] [] (ended (("c " ++ name) :: texts)).toList =
      (texts.reverse ++ (more ++ [line]), []) := by
    have hmark : IsLine "c " := .of_all (by decide)
    rw [toList_ended_cons, String.toList_append, List.append_assoc, cutLines_append hmark]
    exact (hrest _).trans (cutLines_ended htexts _)
  refine ⟨line, more.reverse, List.reverse_eq_nil_iff.trans hmore, ?_, ?_⟩
  · obtain ⟨cs, hcs⟩ := hline
    rw [begins, ← hcs]
    rfl
  · simp [Text.lines, hcut]

/-! ## Texts in order -/

/-- The lines that the text of a formula should have: a comment if the formula has a name, the
problem line, the lines of the clauses, and no others. -/
inductive InOrder (F : Formula) : List String → Prop
  | named (comment : String) (hname : F.name.getD "" ≠ "") (hcomment : begins 'c' comment = true) :
      InOrder F (comment :: countedLines F)
  | unnamed (hname : F.name.getD "" = "") : InOrder F (countedLines F)

theorem nameLines_of_unnamed (h : F.name.getD "" = "") : nameLines F = [] := by
  rw [nameLines]
  cases hF : F.name with
  | none => rfl
  | some name =>
      rw [hF, Option.getD_some] at h
      rw [h]
      rfl

theorem nameLines_of_named (h : F.name.getD "" ≠ "") :
    nameLines F = ["c " ++ F.name.getD ""] := by
  rw [nameLines]
  cases hF : F.name with
  | none =>
      rw [hF] at h
      exact absurd rfl h
  | some name =>
      rw [hF, Option.getD_some] at h
      simp [h]

theorem InOrder.keptLines_eq {texts : List String} (h : InOrder F texts) :
    keptLines texts = countedLines F := by
  cases h with
  | named comment hname hcomment =>
      rw [keptLines_comment hcomment, keptLines_countedLines]
  | unnamed hname => exact keptLines_countedLines F

/-- With no demands on the clauses, a formula is read from any text of which its lines count. -/
theorem parse_lenient {lines : List String} (hkept : keptLines lines = countedLines F)
    (hcount : IsReadable F.numClauses) (name : Option String) :
    parse (.ofLimit true none) name lines = .ok { F with name := name } := by
  have hfits : Fits none F.clauses := fun _ hmost => nomatch hmost
  have hempty : true = false → [] ∉ F.clauses := nofun
  exact parse_of_keptLines hkept hcount hfits hempty name

/-- **A text is in order if the name stays on its line.**  The problem line and the lines of the
clauses are always the last ones.  They come behind one comment at most, and the formula is read
from the text, if no line ends inside the name; and otherwise there are more lines. -/
theorem inOrder_write_iff (F : Formula) :
    countedLines F <:+ Text.lines (write F).toList ∧
      (InOrder F (Text.lines (write F).toList) ↔ StayOnLine (F.name.getD "").toList) ∧
      (StayOnLine (F.name.getD "").toList → IsReadable F.numClauses → ∀ name,
        parse (.ofLimit true none) name (Text.lines (write F).toList) =
          .ok { F with name := name }) := by
  have hlines : ∀ line ∈ countedLines F, IsLine line :=
    fun line hline => isLine_of_mem_countedLines hline
  have hread (h : InOrder F (Text.lines (write F).toList)) (hcount : IsReadable F.numClauses)
      (name : Option String) : _ :=
    parse_lenient h.keptLines_eq hcount name
  by_cases hname : F.name.getD "" = ""
  · have htext : Text.lines (write F).toList = countedLines F := by
      rw [write_eq_ended, nameLines_of_unnamed hname, List.nil_append, lines_ended hlines]
    have horder : InOrder F (Text.lines (write F).toList) := htext ▸ .unnamed hname
    refine ⟨⟨[], ?_⟩, iff_of_true horder ?_, fun _ => hread horder⟩
    · rw [htext, List.nil_append]
    · rw [hname]
      exact ⟨List.not_mem_nil, List.not_mem_nil⟩
  · obtain ⟨line, more, hmore, hline, htext⟩ := exists_lines_comment (F.name.getD "") hlines
    rw [← List.singleton_append, ← nameLines_of_named hname, ← write_eq_ended] at htext
    have hiff : InOrder F (Text.lines (write F).toList) ↔ StayOnLine (F.name.getD "").toList := by
      rw [← hmore, htext]
      constructor
      · intro h
        generalize hcounted : more ++ countedLines F = texts at h
        cases h with
        | named comment _ _ => exact List.append_left_eq_self.1 hcounted
        | unnamed hunnamed => exact absurd hunnamed hname
      · rintro rfl
        exact .named line hname hline
    refine ⟨?_, hiff, fun h => hread (hiff.2 h)⟩
    rw [htext]
    exact List.suffix_append (line :: more) _

/-- Two clauses that contradict each other, under a name that ends in a carriage return. -/
def returning : Formula where
  name := some "x\r"
  numVars := 1
  clauses := [[1], [-1]]
  inRange := by decide
  hasRoom := by decide

theorem inOrder_write_iff_returning :
    StayOnLine (returning.name.getD "").toList ∧ IsReadable returning.numClauses ∧
      InOrder returning (Text.lines "c x\r\np cnf 1 2\n1 0\n-1 0\n".toList) ∧
      parse (.ofLimit true none) none (Text.lines "c x\r\np cnf 1 2\n1 0\n-1 0\n".toList) =
        .ok { returning with name := none } := by
  have hstays : StayOnLine (returning.name.getD "").toList :=
    ⟨by decide, by decide⟩
  have hcount : IsReadable returning.numClauses := isReadable_of_lt (by decide)
  have htext : write returning = "c x\r\np cnf 1 2\n1 0\n-1 0\n" := by
    decide +kernel
  obtain ⟨-, hiff, hread⟩ := inOrder_write_iff returning
  rw [htext] at hiff hread
  exact ⟨hstays, hcount, hiff.2 hstays, hread hstays hcount none⟩

/-- The same clauses under a name that brings a problem line of its own, and an end mark. -/
def overriding : Formula :=
  { returning with name := some "x\np cnf 0 0\n%" }

/-- The formula without variables, which always holds. -/
def decoy : Formula where
  name := none
  numVars := 0
  clauses := []
  inRange := by decide
  hasRoom := by decide

/-- The name makes up three lines, and what they say is read in place of the formula. -/
theorem not_inOrder_overriding :
    ¬InOrder overriding (Text.lines (write overriding).toList) ∧
      parse (.ofLimit true none) none (Text.lines (write overriding).toList) = .ok decoy := by
  have htext : Text.lines (write overriding).toList =
      ["c x", "p cnf 0 0", "%", "p cnf 1 2", "1 0", "-1 0"] := by
    decide +kernel
  have hkept : keptLines (Text.lines (write overriding).toList) = countedLines decoy := by
    rw [htext]
    decide +kernel
  constructor
  · intro h
    have hsame : keptLines (Text.lines (write overriding).toList) = countedLines overriding :=
      h.keptLines_eq
    rw [hkept] at hsame
    exact absurd hsame (by decide +kernel)
  · exact parse_lenient hkept (isReadable_of_lt (by decide)) none

end TrailSat.Dimacs
