import TrailSat.Proofs.Dimacs.Kept
import TrailSat.Proofs.Formula.Building
import TrailSat.State.Basic

/-!
# The grammar of DIMACS text

`parse` takes the lines of a text one after the other and stops at the first that is wrong.  Here is
said, without any such order, which texts it accepts.  A text is laid out as it should be when the
first line that counts is a problem line, no other one is, and all further tokens spell integers
(`LaysOut`).  It describes clauses when the integers are in range and the clauses that they spell
are as many as declared, fit, and are not empty where that is ruled out (`Describes`).

A text that describes clauses is read as the formula with these clauses (`parse_of_describes`),
unless there is no room for its variables; every other text is found at fault, unless that cannot be
told (`parse_of_not_describes`).  `accepts_grammar` puts this together.  The reservations are
needed: a short text may declare more variables than fit anywhere (`not_accepts_vastText`), and the
message that a clause is too long has to name the limit.
-/

namespace TrailSat

/-- Nothing is assigned in a state: no variable has a value, no literal is marked, and every clause
is active. -/
structure State.Untouched (F : Formula) (s : State) : Prop where
  values_eq : s.values = List.replicate F.numVars none
  marks_eq : s.marks = F.clauses.map fun clause => clause.map fun _ => .unset
  active_eq : s.active = List.range F.numClauses
  saved_eq : s.saved = []
  trail_eq : s.trail = []

theorem State.untouched_initial (F : Formula) : (State.initial F).Untouched F where
  values_eq := rfl
  marks_eq := List.map_congr_left fun _ _ => List.map_const.symm
  active_eq := rfl
  saved_eq := rfl
  trail_eq := rfl

namespace Dimacs

open Text Number Formula

variable {allowEmpty : Bool} {limit : Option Int} {numVars numClauses : Nat} {draft : Draft}

/-! ## Describing clauses -/

/-- A text is laid out as a problem line and lines of literals, whose tokens spell values. -/
inductive LaysOut (lines : List String) (numVars numClauses : Nat) (values : List Int) : Prop where
  | intro (header : String) (body : List String) (hkept : keptLines lines = header :: body)
      (hheader : Declares header numVars numClauses)
      (hbody : ∀ line ∈ body, begins 'p' line = false)
      (hspells : Spells (body.flatMap words) values)

/-- A text describes clauses under a limit on the literals of a clause, if there is one. -/
structure Describes (allowEmpty : Bool) (limit : Option Int) (lines : List String)
    (numVars numClauses : Nat) (clauses : List (List Int)) : Prop where
  /-- The clauses are spelled by values in range. -/
  spelled : ∃ values, LaysOut lines numVars numClauses values ∧
    (∀ l ∈ values, l.natAbs ≤ numVars) ∧ clausesOf values = clauses
  /-- There are as many as declared. -/
  length_eq : clauses.length = numClauses
  fits : Fits limit clauses
  nonempty : allowEmpty = false → [] ∉ clauses

/-- What the lines that count leave behind when they are accepted. -/
theorem foldlM_keptLines_eq_ok_iff {lines : List String} :
    (keptLines lines).foldlM (readKept (.ofLimit allowEmpty limit)) {} = .ok draft ∧
        draft.sizes = some (numVars, numClauses) ↔
      ∃ values, LaysOut lines numVars numClauses values ∧ (∀ l ∈ values, l.natAbs ≤ numVars) ∧
        Fits limit (clausesOf values) ∧
        draft = values.foldl Draft.add { sizes := some (numVars, numClauses) } := by
  constructor
  · rintro ⟨hlines, hsizes⟩
    -- no line declares the sizes but a header, so there is a first line that counts
    cases hkept : keptLines lines with
    | nil =>
        rw [hkept] at hlines
        obtain rfl := Except.ok.inj hlines
        cases hsizes
    | cons header body =>
        rw [hkept, List.foldlM_cons, bind_eq_ok_iff] at hlines
        obtain ⟨after, hafter, hrest⟩ := hlines
        obtain ⟨-, m, n, hheader, rfl⟩ := readKept_start_eq_ok_iff.1 hafter
        obtain ⟨hbody, htokens⟩ := (foldlM_readKept_eq_ok_iff rfl).1 hrest
        obtain ⟨values, hspells, hrange, hfits, rfl⟩ :=
          (foldlM_readToken_eq_ok_iff (Draft.sound_start _)).1 htokens
        rw [Draft.sizes_foldl_add] at hsizes
        obtain ⟨rfl, rfl⟩ := Prod.mk.inj (Option.some.inj hsizes)
        exact ⟨values, ⟨header, body, hkept, hheader, hbody, hspells⟩, hrange, hfits, rfl⟩
  · rintro ⟨values, ⟨header, body, hkept, hheader, hbody, hspells⟩, hrange, hfits, rfl⟩
    refine ⟨?_, Draft.sizes_foldl_add values⟩
    have hbegins : begins 'p' header = true := by
      obtain ⟨s, rfl⟩ := exists_strip_of_mem_keptLines (hkept ▸ List.mem_cons_self)
      exact begins_of_declares hheader
    rw [hkept, List.foldlM_cons, bind_eq_ok_iff]
    refine ⟨_, readKept_start_eq_ok_iff.2 ⟨hbegins, _, _, hheader, rfl⟩, ?_⟩
    refine (foldlM_readKept_eq_ok_iff rfl).2 ⟨hbody, ?_⟩
    exact (foldlM_readToken_eq_ok_iff (Draft.sound_start _)).2
      ⟨values, hspells, hrange, hfits, rfl⟩

/-! ## The text as a whole -/

variable {lines : List String} {clauses : List (List Int)}

theorem clauses_of_values (sizes : Option (Nat × Nat)) (values : List Int) :
    (values.foldl Draft.add { sizes := sizes }).clauses = clausesOf values :=
  Draft.clauses_foldl_add List.not_mem_nil values

theorem inRange_clausesOf {values : List Int} (h : ∀ l ∈ values, l.natAbs ≤ numVars) :
    InRange numVars (clausesOf values) := by
  intro clause hclause l hl
  obtain ⟨hne, hmem⟩ := mem_of_mem_clausesOf hclause hl
  exact ⟨hne, h l hmem⟩

/-- The clauses that a text describes are those of a formula, if there is room for it. -/
theorem Describes.sound (h : Describes allowEmpty limit lines numVars numClauses clauses) :
    Formula.Sound allowEmpty numVars numClauses clauses := by
  obtain ⟨⟨values, -, hrange, rfl⟩, hlength, -, hnonempty⟩ := h
  exact ⟨inRange_clausesOf hrange, hlength, hnonempty⟩

theorem parse_of_foldlM {options : Options} {name : Option String}
    (h : (keptLines lines).foldlM (readKept options) {} = .ok draft) :
    parse options name lines = finish options name draft := by
  rw [← readLines_eq options 0] at h
  rw [parse]
  cases hlines : readLines options 0 {} lines with
  | error e =>
      rw [hlines] at h
      cases h
  | ok read =>
      rw [hlines] at h
      obtain rfl := Except.ok.inj h
      rfl

/-- The error of a line has the line that its cause is put down to. -/
theorem exists_atLine_of_readLines {options : Options} {number : Nat} {e : ParseError}
    (h : readLines options number draft lines = .error e) :
    ∃ line, e = e.cause.atLine line := by
  induction lines generalizing number draft with
  | nil => cases h
  | cons line rest ih =>
      -- a skipped line passes on the error of the rest, and at the end mark there is none
      rw [readLines_cons] at h
      split at h
      · exact ih h
      · split at h
        · cases h
        · rcases bind_eq_error_iff.1 h with h | ⟨next, -, h⟩
          · obtain ⟨cause, -, rfl⟩ := mapError_eq_error_iff.1 h
            exact ⟨number + 1, rfl⟩
          · exact ih h

/-- A wrong line makes the text unreadable. -/
theorem exists_atLine_of_foldlM {options : Options} {cause : Cause}
    (h : (keptLines lines).foldlM (readKept options) {} = .error cause) (name : Option String) :
    ∃ line, parse options name lines = .error (cause.atLine line) := by
  rw [← readLines_eq options 0] at h
  cases hlines : readLines options 0 {} lines with
  | ok read =>
      rw [hlines] at h
      cases h
  | error e =>
      rw [hlines] at h
      obtain rfl := Except.error.inj h
      obtain ⟨line, hline⟩ := exists_atLine_of_readLines hlines
      refine ⟨line, ?_⟩
      rw [parse, hlines, ← hline]
      rfl

theorem finish_of_sizes {options : Options} {name : Option String}
    (hsizes : draft.sizes = some (numVars, numClauses))
    (hlength : draft.clauses.length = numClauses) :
    finish options name draft =
      (ofClauses name numVars numClauses draft.clauses options.allowEmpty).mapError
        fun flaw => ⟨none, .flawed flaw⟩ := by
  simp only [finish, hsizes, hlength, ne_eq, not_true_eq_false, if_false]
  cases ofClauses name numVars numClauses draft.clauses options.allowEmpty <;> rfl

/-- **A text that describes clauses is read as the formula with these clauses,** unless there is no
room for its variables. -/
theorem parse_of_describes (h : Describes allowEmpty limit lines numVars numClauses clauses)
    (name : Option String) :
    parse (.ofLimit allowEmpty limit) name lines =
      if hroom : numVars < Value.rowBound then .ok ⟨name, numVars, clauses, h.sound.inRange, hroom⟩
      else .error ⟨none, .flawed (.noRoom (.ofVars numVars))⟩ := by
  have hsound := h.sound
  obtain ⟨⟨values, hlays, hrange, rfl⟩, hlength, hfits, -⟩ := h
  obtain ⟨hkept, hsizes⟩ := foldlM_keptLines_eq_ok_iff.2 ⟨values, hlays, hrange, hfits, rfl⟩
  have hclauses := clauses_of_values (some (numVars, numClauses)) values
  rw [parse_of_foldlM hkept, finish_of_sizes hsizes (by rw [hclauses, hlength]), hclauses]
  rw [Options.ofLimit, ofClauses_of_sound hsound]
  split <;> rfl

/-- **Every other text is found at fault,** unless it cannot be told what is wrong. -/
theorem parse_of_not_describes
    (h : ∀ numVars numClauses clauses,
      ¬Describes allowEmpty limit lines numVars numClauses clauses)
    (name : Option String) :
    ∃ e, parse (.ofLimit allowEmpty limit) name lines = .error e ∧
      (e.cause.blamesText = true ∨ e = ⟨none, .unwritable⟩ ∧ ¬Tellable limit) := by
  cases hkept : (keptLines lines).foldlM (readKept (.ofLimit allowEmpty limit)) {} with
  | error cause =>
      obtain ⟨former, text, -, htext⟩ := exists_of_foldlM_eq_error hkept
      obtain ⟨line, hparse⟩ := exists_atLine_of_foldlM hkept name
      refine ⟨_, hparse, ?_⟩
      rcases blamesText_of_readKept htext with hblames | rfl
      · exact .inl hblames
      · -- such a cause is not put down to its line
        exact .inr ⟨rfl, not_tellable_of_readKept htext⟩
  | ok draft =>
      rw [parse_of_foldlM hkept]
      cases hsizes : draft.sizes with
      | none =>
          refine ⟨⟨none, .missingProblemLine⟩, ?_, .inl rfl⟩
          rw [finish, hsizes]
      | some sizes =>
          obtain ⟨numVars, numClauses⟩ := sizes
          obtain ⟨values, hlays, hrange, hfits, rfl⟩ := foldlM_keptLines_eq_ok_iff.1 ⟨hkept, hsizes⟩
          have hclauses := clauses_of_values (some (numVars, numClauses)) values
          by_cases hlength : (clausesOf values).length = numClauses
          · -- all lines are accepted and the clauses are counted, so what is left is in the clauses
            have hflawed : ¬Formula.Sound allowEmpty numVars numClauses (clausesOf values) :=
              fun hsound => h numVars numClauses (clausesOf values)
                ⟨⟨values, hlays, hrange, rfl⟩, hlength, hfits, hsound.nonempty⟩
            obtain ⟨flaw, hflaw, hroom⟩ := exists_flaw_of_not_sound hflawed
            refine ⟨⟨none, .flawed flaw⟩, ?_, .inl ?_⟩
            · rw [finish_of_sizes hsizes (by rw [hclauses, hlength]), hclauses, Options.ofLimit,
                hflaw]
              rfl
            · subst hlength
              rcases flaw_of_inRange (inRange_clausesOf hrange) hflaw with
                ⟨index, rfl, -⟩ | ⟨shortage, rfl⟩
              · rfl
              · exact absurd rfl (hroom shortage)
          · refine ⟨⟨none, .wrongCount numClauses (clausesOf values).length⟩, ?_, .inl rfl⟩
            simp only [finish, hsizes, hclauses, ne_eq, hlength, not_false_eq_true, if_true]

/-- What is read is what the text describes. -/
theorem describes_of_parse {name : Option String} {F : Formula}
    (h : parse (.ofLimit allowEmpty limit) name lines = .ok F) :
    F.name = name ∧ Describes allowEmpty limit lines F.numVars F.numClauses F.clauses := by
  by_cases hdescribes : ∃ numVars numClauses clauses,
      Describes allowEmpty limit lines numVars numClauses clauses
  · obtain ⟨numVars, numClauses, clauses, hdescribes⟩ := hdescribes
    rw [parse_of_describes hdescribes] at h
    split at h
    · obtain rfl := Except.ok.inj h
      obtain rfl : clauses.length = numClauses := hdescribes.length_eq
      exact ⟨rfl, hdescribes⟩
    · cases h
  · obtain ⟨e, he, -⟩ := parse_of_not_describes
      (fun numVars numClauses clauses hd => hdescribes ⟨numVars, numClauses, clauses, hd⟩) name
    rw [he] at h
    cases h

/-- **Reading accepts the texts of the grammar that there is room for.**  What is read is what the
text describes, with nothing assigned.  Any other text is at fault itself, unless it describes
clauses over too many variables, or what is wrong cannot be told because of the limit. -/
theorem accepts_grammar (allowEmpty : Bool) (limit : Option Int) (name : Option String)
    (lines : List String) :
    let result := parse (.ofLimit allowEmpty limit) name lines
    ((∃ F, result = .ok F) ↔ ∃ numVars numClauses clauses,
        Describes allowEmpty limit lines numVars numClauses clauses ∧ numVars < Value.rowBound) ∧
      (∀ F, result = .ok F →
        F.name = name ∧ Describes allowEmpty limit lines F.numVars F.numClauses F.clauses ∧
          (State.initial F).Untouched F) ∧
      ∀ e, result = .error e →
        e.cause.blamesText = true ∨
          (∃ numVars numClauses clauses,
            Describes allowEmpty limit lines numVars numClauses clauses ∧
              Value.rowBound ≤ numVars ∧ e = ⟨none, .flawed (.noRoom (.ofVars numVars))⟩) ∨
          e = ⟨none, .unwritable⟩ ∧ ¬Tellable limit := by
  refine ⟨⟨?_, ?_⟩, fun F h => ?_, fun e h => ?_⟩
  · rintro ⟨F, h⟩
    exact ⟨F.numVars, F.numClauses, F.clauses, (describes_of_parse h).2, F.hasRoom⟩
  · rintro ⟨numVars, numClauses, clauses, h, hroom⟩
    exact ⟨_, (parse_of_describes h name).trans (dif_pos hroom)⟩
  · obtain ⟨hname, hdescribes⟩ := describes_of_parse h
    exact ⟨hname, hdescribes, State.untouched_initial F⟩
  · by_cases hdescribes : ∃ numVars numClauses clauses,
        Describes allowEmpty limit lines numVars numClauses clauses
    · obtain ⟨numVars, numClauses, clauses, hdescribes⟩ := hdescribes
      have hresult := (parse_of_describes hdescribes name).symm.trans h
      split at hresult
      · cases hresult
      · next hroom =>
        obtain rfl := Except.error.inj hresult
        exact .inr (.inl ⟨numVars, numClauses, clauses, hdescribes, Nat.le_of_not_lt hroom, rfl⟩)
    · obtain ⟨other, hother, hblames⟩ := parse_of_not_describes
        (fun numVars numClauses clauses hd => hdescribes ⟨numVars, numClauses, clauses, hd⟩) name
      obtain rfl := Except.error.inj (hother.symm.trans h)
      exact hblames.imp_right .inr

/-- A text that declares more variables than there is room for. -/
def vastText : List String :=
  ["p cnf 99999999999999999999 0"]

theorem not_accepts_vastText : (∃ numVars numClauses clauses,
    Describes true none vastText numVars numClauses clauses) ∧
    ¬∃ F, parse (.ofLimit true none) none vastText = .ok F := by
  have hdescribes : Describes true none vastText 99999999999999999999 0 [] := by
    have hheader : Declares "p cnf 99999999999999999999 0" 99999999999999999999 0 :=
      ⟨"99999999999999999999", "0", by decide +kernel, by decide +kernel, by decide +kernel⟩
    have hlayout : LaysOut vastText 99999999999999999999 0 [] :=
      ⟨"p cnf 99999999999999999999 0", [], by decide +kernel, hheader, by simp, .nil⟩
    exact ⟨⟨[], hlayout, by simp, rfl⟩, rfl, by simp [Fits], by simp⟩
  refine ⟨⟨_, _, _, hdescribes⟩, ?_⟩
  rw [parse_of_describes hdescribes]
  rintro ⟨F, hF⟩
  rw [dif_neg (by decide)] at hF
  cases hF

end Dimacs

end TrailSat
