import Mathlib.Order.Bounds.Basic
import TrailSat.Proofs.Dimacs.BadLine

/-!
# The first wrong line of a DIMACS text

An error with a line number is about the first line that is wrong (`error_at_first_wrong`).  Lines
are numbered as they stand in the text, blank ones and comments included, although these do not
count, and no line from the end mark on does (`Counts`).

The reader stops at a line if it refuses it and has taken in those in front of it (`StopsAt`).  Then
the line is wrong, and since no line that is taken in is wrong (`not_wrongAt_of_foldlM`), it is the
first (`StopsAt.isLeast`).  Otherwise the reader takes in all lines, and none is wrong; errors that
it finds afterwards are about the text as a whole and have no line (`ofWhole_of_finish`).

There is one exception: if the first wrong line has a clause that is too long, and the limit has too
many digits to be told, then the error has neither the line nor any other word about the text
(`not_error_at_first_wrong_of_vastLimit`).
-/

namespace TrailSat.Dimacs

open Text

variable {allowEmpty : Bool} {limit : Option Int} {options : Options} {draft reached : Draft}
  {lines front rest : List String} {line text : String} {cause : Cause} {name : Option String}

/-! ## Wrong lines -/

/-- A line counts behind the lines in front of it. -/
structure Counts (front : List String) (line : String) : Prop where
  unmarked : ∀ other ∈ front ++ [line], begins '%' (strip other) = false
  kept : isSkipped (strip line) = false

/-- The line with this number counts, and something holds of it behind the lines that count in front
of it. -/
inductive LineAt (Holds : List String → String → Prop) (lines : List String) (number : Nat) :
    Prop where
  | intro (front : List String) (line : String) (rest : List String)
      (hlines : lines = front ++ line :: rest) (hnumber : number = front.length + 1)
      (hcounts : Counts front line) (hholds : Holds (keptLines front) (strip line))

/-- The line with this number is wrong. -/
def WrongAt (limit : Option Int) (lines : List String) (number : Nat) : Prop :=
  LineAt (BadLine limit) lines number

/-- What is first wrong with the line with this number cannot be told. -/
def UntoldAt (limit : Option Int) (lines : List String) (number : Nat) : Prop :=
  LineAt (UntoldLine limit) lines number

/-- A line is the only one with its number. -/
theorem lineAt_iff {Holds : List String → String → Prop} :
    LineAt Holds (front ++ line :: rest) (front.length + 1) ↔
      Counts front line ∧ Holds (keptLines front) (strip line) := by
  constructor
  · rintro ⟨before, other, after, hlines, hnumber, hcounts, hholds⟩
    obtain ⟨rfl, htail⟩ := List.append_inj hlines (Nat.succ.inj hnumber)
    obtain ⟨rfl, -⟩ := List.cons.inj htail
    exact ⟨hcounts, hholds⟩
  · rintro ⟨hcounts, hholds⟩
    exact ⟨front, line, rest, rfl, rfl, hcounts, hholds⟩

/-! ## Lines that count, in the text -/

theorem not_begins_of_isSkipped (h : isSkipped text = true) : begins '%' text = false := by
  cases hchars : text.toList with
  | nil => simp [begins, hchars]
  | cons first more =>
      have hfirst : first = 'c' ∨ first = 'C' := by simpa [isSkipped, begins, hchars] using h
      rcases hfirst with rfl | rfl
      · simp [begins, hchars]
      · simp [begins, hchars]

theorem keptLines_append (hopen : ∀ other ∈ front, begins '%' (strip other) = false)
    (rest : List String) : keptLines (front ++ rest) = keptLines front ++ keptLines rest := by
  induction front with
  | nil => rfl
  | cons first more ih =>
      obtain ⟨hfirst, hmore⟩ := List.forall_mem_cons.1 hopen
      rw [List.cons_append, keptLines_cons, keptLines_cons, ih hmore]
      split
      · rfl
      · rw [if_neg (by simp [hfirst]), if_neg (by simp [hfirst]), List.cons_append]

/-- Reading goes on behind lines that are taken in. -/
theorem readLines_append (hopen : ∀ other ∈ front, begins '%' (strip other) = false)
    (hfront : (keptLines front).foldlM (readKept options) draft = .ok reached) (number : Nat)
    (rest : List String) :
    readLines options number draft (front ++ rest) =
      readLines options (number + front.length) reached rest := by
  induction front generalizing number draft with
  | nil =>
      obtain rfl := Except.ok.inj hfront
      rfl
  | cons first more ih =>
      obtain ⟨hfirst, hmore⟩ := List.forall_mem_cons.1 hopen
      have hnumber : number + (first :: more).length = number + 1 + more.length := by
        rw [List.length_cons]
        omega
      rw [keptLines_cons] at hfront
      rw [List.cons_append, readLines_cons, hnumber]
      split at hfront
      · next hskip => rw [if_pos hskip, ih hmore hfront]
      · next hskip =>
        rw [if_neg (by simp [hfirst]), List.foldlM_cons, bind_eq_ok_iff] at hfront
        obtain ⟨next, hnext, hfront⟩ := hfront
        rw [if_neg hskip, if_neg (by simp [hfirst]), hnext]
        exact ih hmore hfront (number + 1)

namespace Counts

theorem isOpen (h : Counts front line) : ∀ other ∈ front, begins '%' (strip other) = false :=
  fun other hother => h.unmarked other (List.mem_append_left _ hother)

theorem notMark (h : Counts front line) : begins '%' (strip line) = false :=
  h.unmarked line (by simp)

theorem cons {first : String} (hfirst : begins '%' (strip first) = false)
    (h : Counts front line) : Counts (first :: front) line :=
  ⟨List.forall_mem_cons.2 ⟨hfirst, h.unmarked⟩, h.kept⟩

theorem keptLines_eq (h : Counts front line) (rest : List String) :
    keptLines (front ++ line :: rest) = keptLines front ++ strip line :: keptLines rest := by
  rw [keptLines_append h.isOpen, keptLines_cons, if_neg (by simp [h.kept]),
    if_neg (by simp [h.notMark])]

end Counts

theorem exists_counts_of_keptLines {before after : List String}
    (h : keptLines lines = before ++ text :: after) :
    ∃ front line rest, lines = front ++ line :: rest ∧ Counts front line ∧
      keptLines front = before ∧ strip line = text := by
  induction lines generalizing before with
  | nil => simp [keptLines] at h
  | cons first more ih =>
      rw [keptLines_cons] at h
      split at h
      · next hskip =>
        obtain ⟨front, line, rest, rfl, hcounts, hfront, hline⟩ := ih h
        refine ⟨first :: front, line, rest, rfl, ?_, ?_, hline⟩
        · exact hcounts.cons (not_begins_of_isSkipped hskip)
        · rw [keptLines_cons, if_pos hskip, hfront]
      · next hskip =>
        split at h
        · simp at h
        · next hmark =>
          have hfirst : begins '%' (strip first) = false := by simpa using hmark
          -- the line looked for is this one, or stands behind it
          cases before with
          | nil =>
              have hkept : isSkipped (strip first) = false := by simpa using hskip
              exact ⟨[], first, more, rfl, ⟨by simpa using hfirst, hkept⟩, rfl,
                (List.cons.inj h).1⟩
          | cons head before =>
              obtain ⟨rfl, htail⟩ := List.cons.inj h
              obtain ⟨front, line, rest, rfl, hcounts, hfront, hline⟩ := ih htail
              refine ⟨first :: front, line, rest, rfl, hcounts.cons hfirst, ?_, hline⟩
              rw [keptLines_cons, if_neg hskip, if_neg hmark, hfront]

/-! ## The line at which the reader stops -/

/-- The reader stops at a line: those in front of it are taken in, and it is refused. -/
structure StopsAt (options : Options) (front : List String) (line : String) (cause : Cause) :
    Prop where
  counts : Counts front line
  refused : ∃ reached, (keptLines front).foldlM (readKept options) {} = .ok reached ∧
    readKept options reached (strip line) = .error cause

/-- The reader stops somewhere unless it takes in all lines. -/
theorem stops_or_takes (options : Options) (lines : List String) :
    (∃ front line rest cause, lines = front ++ line :: rest ∧ StopsAt options front line cause) ∨
      ∃ draft, (keptLines lines).foldlM (readKept options) {} = .ok draft := by
  cases hlines : (keptLines lines).foldlM (readKept options) {} with
  | ok draft => exact .inr ⟨draft, rfl⟩
  | error cause =>
      left
      obtain ⟨before, text, after, former, hkept, hbefore, htext⟩ :=
        foldlM_eq_error_iff.1 hlines
      obtain ⟨front, line, rest, rfl, hcounts, rfl, rfl⟩ := exists_counts_of_keptLines hkept
      exact ⟨front, line, rest, cause, rfl, hcounts, former, hbefore, htext⟩

theorem not_wrongAt_of_foldlM
    (h : (keptLines lines).foldlM (readKept (.ofLimit allowEmpty limit)) {} = .ok draft)
    (number : Nat) : ¬WrongAt limit lines number := by
  rintro ⟨front, line, rest, rfl, -, hcounts, hbad⟩
  rw [hcounts.keptLines_eq] at h
  obtain ⟨reached, next, hfront, hline⟩ := exists_of_foldlM_eq_ok h
  obtain ⟨cause, hcause⟩ := (refuses_iff_badLine hfront).2 hbad
  rw [hline] at hcause
  cases hcause

theorem WrongAt.of_append {number : Nat} (h : WrongAt limit (front ++ rest) number)
    (hle : number ≤ front.length) : WrongAt limit front number := by
  obtain ⟨before, line, after, hlines, rfl, hcounts, hbad⟩ := h
  have hwhole : before ++ [line] <+: front ++ rest := ⟨after, by rw [hlines]; simp⟩
  have hlength : (before ++ [line]).length ≤ front.length := by simpa using hle
  obtain ⟨middle, rfl⟩ :=
    List.prefix_of_prefix_length_le hwhole (List.prefix_append front rest) hlength
  exact ⟨before, line, middle, by simp, rfl, hcounts, hbad⟩

namespace StopsAt

theorem parse_eq (h : StopsAt options front line cause) (name : Option String)
    (rest : List String) :
    parse options name (front ++ line :: rest) = .error (cause.atLine (front.length + 1)) := by
  obtain ⟨hcounts, reached, hfront, hline⟩ := h
  rw [parse, readLines_append hcounts.isOpen hfront, readLines_cons,
    if_neg (by simp [hcounts.kept]), if_neg (by simp [hcounts.notMark]), hline, Nat.zero_add]
  rfl

/-- **The reader stops at the first line that is wrong.** -/
theorem isLeast (h : StopsAt (.ofLimit allowEmpty limit) front line cause) (rest : List String) :
    IsLeast { number | WrongAt limit (front ++ line :: rest) number } (front.length + 1) := by
  obtain ⟨hcounts, reached, hfront, hline⟩ := h
  constructor
  · exact lineAt_iff.2 ⟨hcounts, (refuses_iff_badLine hfront).1 ⟨cause, hline⟩⟩
  · intro number hnumber
    by_contra hless
    exact not_wrongAt_of_foldlM hfront number (hnumber.of_append (by omega))

/-- The reader tells the line at which it stops, unless what is wrong with it cannot be told. -/
theorem told_or_untold (h : StopsAt (.ofLimit allowEmpty limit) front line cause)
    (rest : List String) :
    cause ≠ .unwritable ∧ cause.atLine (front.length + 1) = ⟨some (front.length + 1), cause⟩ ∧
        ¬UntoldAt limit (front ++ line :: rest) (front.length + 1) ∨
      cause = .unwritable ∧ UntoldAt limit (front ++ line :: rest) (front.length + 1) := by
  obtain ⟨hcounts, reached, hfront, hline⟩ := h
  have huntold : UntoldAt limit (front ++ line :: rest) (front.length + 1) ↔
      cause = .unwritable := by
    rw [UntoldAt, lineAt_iff, and_iff_right hcounts, ← untold_iff_untoldLine hfront, hline]
    exact ⟨Except.error.inj, congrArg Except.error⟩
  rcases blamesText_of_readKept hline with hblames | rfl
  · have hne : cause ≠ .unwritable := by
      rintro rfl
      cases hblames
    have hat : cause.atLine (front.length + 1) = ⟨some (front.length + 1), cause⟩ := by
      rw [Cause.atLine, if_pos hblames]
    exact .inl ⟨hne, hat, fun h => hne (huntold.1 h)⟩
  · exact .inr ⟨rfl, huntold.2 rfl⟩

end StopsAt

/-! ## The text as a whole -/

/-- What is wrong with a text as a whole. -/
inductive Cause.OfWhole (allowEmpty : Bool) : Cause → Prop where
  | missing : OfWhole allowEmpty .missingProblemLine
  | count {declared found : Nat} (hne : found ≠ declared) :
      OfWhole allowEmpty (.wrongCount declared found)
  | empty (index : Nat) (hforbidden : allowEmpty = false) :
      OfWhole allowEmpty (.flawed (.emptyClause index))

/-- What is wrong with the text as a whole can be told, and is not put down to a line. -/
theorem line_of_finish {e : ParseError} (h : finish options name draft = .error e) :
    e.line = none ∧ e.cause ≠ .unwritable := by
  rw [finish] at h
  split at h
  · obtain rfl := Except.error.inj h
    exact ⟨rfl, Cause.noConfusion⟩
  · split at h
    · obtain rfl := Except.error.inj h
      exact ⟨rfl, Cause.noConfusion⟩
    · split at h
      · obtain rfl := Except.error.inj h
        exact ⟨rfl, Cause.noConfusion⟩
      · cases h

theorem ofWhole_of_finish
    (hlines : (keptLines lines).foldlM (readKept (.ofLimit allowEmpty limit)) {} = .ok draft)
    {e : ParseError} (h : finish (.ofLimit allowEmpty limit) name draft = .error e)
    (hblames : e.cause.blamesText = true) : e.cause.OfWhole allowEmpty := by
  cases hsizes : draft.sizes with
  | none =>
      rw [finish, hsizes] at h
      obtain rfl := Except.error.inj h
      exact .missing
  | some sizes =>
      obtain ⟨numVars, numClauses⟩ := sizes
      obtain ⟨values, -, hrange, -, rfl⟩ := foldlM_keptLines_eq_ok_iff.1 ⟨hlines, hsizes⟩
      by_cases hlength : (clausesOf values).length = numClauses
      · -- the values are in range, so of the flaws of clauses only the empty ones are left
        subst hlength
        rw [finish_of_sizes hsizes (by rw [clauses_of_values]), clauses_of_values] at h
        cases hformula : Formula.ofClauses name numVars (clausesOf values).length
            (clausesOf values) allowEmpty with
        | ok F =>
            rw [Options.ofLimit, hformula] at h
            cases h
        | error flaw =>
            rw [Options.ofLimit, hformula] at h
            obtain rfl := Except.error.inj h
            rcases Formula.flaw_of_inRange (inRange_clausesOf hrange) hformula with
              ⟨index, rfl, hforbidden⟩ | ⟨shortage, rfl⟩
            · exact .empty index hforbidden
            · cases hblames
      · simp only [finish, hsizes, clauses_of_values, ne_eq, hlength, not_false_eq_true,
          if_true] at h
        obtain rfl := Except.error.inj h
        exact .count hlength

/-- **An error is about the first line that is wrong.**  It has a number just when some line is
wrong, namely that of the first one, unless what is wrong with that cannot be told.  Either way it
depends on no line behind it.  Any other error without a number is about the text as a whole, and
there is none unless all lines are right. -/
theorem error_at_first_wrong (allowEmpty : Bool) (limit : Option Int) (name : Option String)
    (lines : List String) :
    let result := parse (.ofLimit allowEmpty limit) name lines
    let First := IsLeast { number | WrongAt limit lines number }
    (∀ n, (∃ cause, result = .error ⟨some n, cause⟩) ↔ First n ∧ ¬UntoldAt limit lines n) ∧
      (result = .error ⟨none, .unwritable⟩ ↔ ∃ n, First n ∧ UntoldAt limit lines n) ∧
      (∀ n, First n → ∀ other,
        parse (.ofLimit allowEmpty limit) name (lines.take n ++ other) = result) ∧
      ∀ cause, result = .error ⟨none, cause⟩ → cause ≠ .unwritable →
        (∀ number, ¬WrongAt limit lines number) ∧
          (cause.blamesText = true → cause.OfWhole allowEmpty) := by
  intro result First
  rcases stops_or_takes (.ofLimit allowEmpty limit) lines with
    ⟨front, line, rest, cause, rfl, hstops⟩ | ⟨draft, hdraft⟩
  · have hleast : First (front.length + 1) := hstops.isLeast rest
    have hresult : result = .error (cause.atLine (front.length + 1)) := hstops.parse_eq name rest
    have hdepends : ∀ n, First n → ∀ other, parse (.ofLimit allowEmpty limit) name
        ((front ++ line :: rest).take n ++ other) = result := by
      intro n hn other
      obtain rfl := hn.unique hleast
      have htake : (front ++ line :: rest).take (front.length + 1) ++ other =
          front ++ line :: other := by
        rw [List.take_length_add_append, List.append_assoc]
        rfl
      rw [htake, hstops.parse_eq name other, hresult]
    rcases hstops.told_or_untold rest with ⟨hne, hat, htold⟩ | ⟨rfl, huntold⟩
    · -- the line is told
      rw [hat] at hresult
      refine ⟨fun n => ⟨?_, ?_⟩, ⟨fun h => ?_, ?_⟩, hdepends, fun other h => ?_⟩
      · rintro ⟨other, h⟩
        obtain ⟨hnumber, -⟩ := ParseError.mk.inj (Except.error.inj (hresult.symm.trans h))
        obtain rfl := Option.some.inj hnumber
        exact ⟨hleast, htold⟩
      · rintro ⟨hn, -⟩
        rw [hn.unique hleast]
        exact ⟨cause, hresult⟩
      · cases hresult.symm.trans h
      · rintro ⟨n, hn, huntold⟩
        rw [hn.unique hleast] at huntold
        exact absurd huntold htold
      · cases hresult.symm.trans h
    · refine ⟨fun n => ⟨?_, ?_⟩, iff_of_true hresult ⟨_, hleast, huntold⟩, hdepends,
        fun other h hother => ?_⟩
      · rintro ⟨other, h⟩
        cases hresult.symm.trans h
      · rintro ⟨hn, htold⟩
        rw [hn.unique hleast] at htold
        exact absurd huntold htold
      · obtain ⟨-, rfl⟩ := ParseError.mk.inj (Except.error.inj (hresult.symm.trans h))
        exact absurd rfl hother
  · have hright := not_wrongAt_of_foldlM hdraft
    have hnone {e : ParseError} (h : result = .error e) :
        finish (.ofLimit allowEmpty limit) name draft = .error e :=
      (parse_of_foldlM hdraft).symm.trans h
    refine ⟨fun n => ⟨?_, fun hn => absurd hn.1.1 (hright n)⟩, ⟨fun h => ?_, ?_⟩,
      fun n hn => absurd hn.1 (hright n), fun cause h _ => ?_⟩
    · rintro ⟨cause, h⟩
      cases (line_of_finish (hnone h)).1
    · exact absurd rfl (line_of_finish (hnone h)).2
    · rintro ⟨n, hn, -⟩
      exact absurd hn.1 (hright n)
    · exact ⟨hright, ofWhole_of_finish hdraft (hnone h)⟩

/-- A literal is out of range on the sixth line, and there is an `x` on the seventh.  With a limit
of one literal the fourth line is wrong already. -/
theorem error_at_first_wrong_of_mixed :
    let lines := ["c 1", "", "p cnf 3 2", "1 2", " C x", "-3 0 4", "x", "%", "p"]
    IsLeast { number | WrongAt none lines number } 6 ∧
      IsLeast { number | WrongAt (some 1) lines number } 4 ∧
      ∀ other, parse (.ofLimit true none) none (lines.take 6 ++ other) =
        parse (.ofLimit true none) none lines := by
  intro lines
  have hfree : (parse (.ofLimit true none) none lines).mapError (fun e => (e.line, e.message)) =
      .error (some 6, "line 6: literal 4 out of range for 3 variables") := by
    decide +kernel
  have hlimited :
      (parse (.ofLimit true (some 1)) none lines).mapError (fun e => (e.line, e.message)) =
        .error (some 4, "line 4: clause longer than 1 literals") := by
    decide +kernel
  obtain ⟨⟨_, cause⟩, hfree, hsixth⟩ := mapError_eq_error_iff.1 hfree
  obtain ⟨⟨_, other⟩, hlimited, hfourth⟩ := mapError_eq_error_iff.1 hlimited
  obtain ⟨rfl, -⟩ := Prod.mk.inj hsixth
  obtain ⟨rfl, -⟩ := Prod.mk.inj hfourth
  obtain ⟨hnumbered, -, hdepends, -⟩ := error_at_first_wrong true none none lines
  obtain ⟨hleast, -⟩ := (hnumbered 6).1 ⟨cause, hfree⟩
  obtain ⟨hleast', -⟩ :=
    ((error_at_first_wrong true (some 1) none lines).1 4).1 ⟨other, hlimited⟩
  exact ⟨hleast, hleast', hdepends 6 hleast⟩

/-- A limit that no clause keeps, with too many digits to be told. -/
def vastLimit : Int := -Int.pow 10 5000

theorem stopsAt_vastLimit :
    StopsAt (.ofLimit true (some vastLimit)) ["p cnf 1 1"] "1 0" .unwritable := by
  have hstart : Declares "p cnf 1 1" 1 1 :=
    ⟨"1", "1", by decide +kernel, by decide +kernel, by decide +kernel⟩
  have hkept : keptLines ["p cnf 1 1"] = ["p cnf 1 1"] := by decide +kernel
  have hwords : words (strip "1 0") = ["1", "0"] := by decide +kernel
  have hread : Number.readInteger "1" = .ok 1 := by decide +kernel
  have hlong : vastLimit < (([] : List Int).length : Int) + 1 := by decide +kernel
  have hdigits : ¬Number.isWritable vastLimit = true := by decide +kernel
  refine ⟨⟨by decide +kernel, by decide +kernel⟩, { sizes := some (1, 1) }, ?_, ?_⟩
  · rw [hkept]
    exact bind_eq_ok_iff.2
      ⟨_, readKept_start_eq_ok_iff.2 ⟨by decide +kernel, 1, 1, hstart, rfl⟩, rfl⟩
  · rw [readKept_of_literals (by decide +kernel) rfl, hwords, List.foldlM_cons,
      readToken_of_literal hread (by decide) (by decide), if_pos hlong, ofLimit_int,
      if_neg hdigits]
    rfl

/-- The second line is wrong, but the error does not say so. -/
theorem not_error_at_first_wrong_of_vastLimit :
    IsLeast { number | WrongAt (some vastLimit) ["p cnf 1 1", "1 0"] number } 2 ∧
      ¬∃ cause, parse (.ofLimit true (some vastLimit)) none ["p cnf 1 1", "1 0"] =
        .error ⟨some 2, cause⟩ := by
  refine ⟨stopsAt_vastLimit.isLeast [], ?_⟩
  rintro ⟨cause, h⟩
  cases (stopsAt_vastLimit.parse_eq none []).symm.trans h

end TrailSat.Dimacs
