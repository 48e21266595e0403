import Mathlib.Data.List.Basic
import TrailSat.Dimacs.Reader
import TrailSat.Proofs.Fallible

/-!
# Clauses spelled by values

The tokens of a DIMACS text are read into a `Draft`, which has the closed clauses and the literals
of the one under construction.  What the clauses are can be said without it: the row of all values
is cut at its zeros (`clausesOf`).

A token is accepted when it spells a value that is in range and the clause under construction has
room for it (`readToken_eq_ok_iff`).  The length of a clause is looked at while it grows, and all of
it at once in `Fits`; `fits_add` says that this comes to the same.  So a row of tokens is accepted
just when its values are in range and their clauses fit (`foldlM_readToken_eq_ok_iff`).
-/

namespace TrailSat.Dimacs

open Number

/-! ## Cutting at zeros -/

/-- The clauses that a row of values spells: it is cut at its zeros, and what is behind the last
zero is a clause unless it is empty. -/
def clausesOf (values : List Int) : List (List Int) :=
  let parts := values.splitOn 0
  if parts.getLast? = some [] then parts.dropLast else parts

variable {current : List Int}

theorem clausesOf_of_not_mem (hzero : 0 ∉ current) :
    clausesOf current = if current.isEmpty then [] else [current] := by
  rw [clausesOf, List.splitOn_eq_singleton hzero]
  cases current <;> rfl

theorem clausesOf_append_zero (hzero : 0 ∉ current) (rest : List Int) :
    clausesOf (current ++ 0 :: rest) = current :: clausesOf rest := by
  have hne : rest.splitOn 0 ≠ [] := fun h => List.splitOn_ne_nil 0 rest h
  obtain ⟨part, parts, hparts⟩ := List.exists_cons_of_ne_nil hne
  rw [clausesOf, clausesOf, List.splitOn_append_cons_self_of_not_mem hzero, hparts,
    List.getLast?_cons_cons, List.dropLast_cons_of_ne_nil (List.cons_ne_nil part parts)]
  split <;> rfl

/-- What stands in front of the first zero is the beginning of a clause. -/
theorem exists_prefix_clausesOf (hzero : 0 ∉ current) (hne : current ≠ []) (rest : List Int) :
    ∃ clause ∈ clausesOf (current ++ rest), current <+: clause := by
  induction rest generalizing current with
  | nil =>
      rw [List.append_nil, clausesOf_of_not_mem hzero, if_neg (by simpa using hne)]
      exact ⟨current, List.mem_cons_self, List.prefix_refl _⟩
  | cons l rest ih =>
      by_cases hl : l = 0
      · rw [hl, clausesOf_append_zero hzero]
        exact ⟨current, List.mem_cons_self, List.prefix_refl _⟩
      · have hmore : 0 ∉ current ++ [l] := by simp [hzero, Ne.symm hl]
        obtain ⟨clause, hclause, hbegins⟩ := ih hmore (by simp)
        rw [List.append_assoc] at hclause
        exact ⟨clause, hclause, (List.prefix_append ..).trans hbegins⟩

/-- The literals of the clauses are among the values, and none is zero. -/
theorem mem_of_mem_clausesOf {values : List Int} {clause : List Int}
    (hclause : clause ∈ clausesOf values) {l : Int} (hl : l ∈ clause) : l ≠ 0 ∧ l ∈ values := by
  -- the values are taken one by one off those behind the clause in front
  suffices h : ∀ front : List Int, 0 ∉ front → clause ∈ clausesOf (front ++ values) →
      l ≠ 0 ∧ l ∈ front ++ values from h [] List.not_mem_nil hclause
  clear hclause
  intro front hzero hclause
  have hfront : l ∈ front → l ≠ 0 := by
    rintro h rfl
    exact hzero h
  induction values generalizing front with
  | nil =>
      rw [List.append_nil] at hclause ⊢
      rw [clausesOf_of_not_mem hzero] at hclause
      split at hclause
      · cases hclause
      · obtain rfl := List.mem_singleton.1 hclause
        exact ⟨hfront hl, hl⟩
  | cons first rest ih =>
      by_cases hfirst : first = 0
      · subst hfirst
        rw [clausesOf_append_zero hzero] at hclause
        rcases List.mem_cons.1 hclause with rfl | hclause
        · exact ⟨hfront hl, List.mem_append_left _ hl⟩
        · obtain ⟨hne, hmem⟩ := ih [] List.not_mem_nil hclause nofun
          exact ⟨hne, List.mem_append_right _ (List.mem_cons_of_mem _ hmem)⟩
      · have hmore : 0 ∉ front ++ [first] := by simp [hzero, Ne.symm hfirst]
        have hcons : front ++ first :: rest = front ++ [first] ++ rest := by simp
        rw [hcons] at hclause ⊢
        refine ih _ hmore hclause ?_
        rintro h rfl
        exact hmore h

/-- No value but a zero is lost. -/
theorem exists_mem_clausesOf {values : List Int} {l : Int} (hl : l ∈ values) (hne : l ≠ 0) :
    ∃ clause ∈ clausesOf values, l ∈ clause := by
  suffices h : ∀ front : List Int, 0 ∉ front → l ∈ front ++ values →
      ∃ clause ∈ clausesOf (front ++ values), l ∈ clause from h [] List.not_mem_nil hl
  clear hl
  intro front hzero hmem
  induction values generalizing front with
  | nil =>
      rw [List.append_nil] at hmem ⊢
      rw [clausesOf_of_not_mem hzero, if_neg (by simpa using List.ne_nil_of_mem hmem)]
      exact ⟨front, List.mem_cons_self, hmem⟩
  | cons first rest ih =>
      by_cases hfirst : first = 0
      · subst hfirst
        rw [clausesOf_append_zero hzero]
        rcases List.mem_append.1 hmem with hmem | hmem
        · exact ⟨front, List.mem_cons_self, hmem⟩
        · have hrest : l ∈ rest := (List.mem_cons.1 hmem).resolve_left hne
          obtain ⟨clause, hclause, hl⟩ := ih [] List.not_mem_nil hrest
          exact ⟨clause, List.mem_cons_of_mem _ hclause, hl⟩
      · have hmore : 0 ∉ front ++ [first] := by simp [hzero, Ne.symm hfirst]
        have hcons : front ++ first :: rest = front ++ [first] ++ rest := by simp
        rw [hcons] at hmem ⊢
        exact ih _ hmore hmem

/-! ## Limits -/

/-- No clause but an empty one is longer than the limit, if there is one. -/
def Fits (limit : Option Int) (clauses : List (List Int)) : Prop :=
  ∀ most, limit = some most → ∀ clause ∈ clauses, clause ≠ [] → clause.length ≤ most

variable {limit : Option Int}

theorem fits_nil (limit : Option Int) : Fits limit [[]] := by
  simp [Fits]

theorem fits_cons (clause : List Int) (clauses : List (List Int)) :
    Fits limit (clause :: clauses) ↔ Fits limit [clause] ∧ Fits limit clauses := by
  simp only [Fits, List.forall_mem_cons, List.not_mem_nil, false_imp_iff, implies_true, and_true]
  exact ⟨fun h => ⟨fun most hlimit => (h most hlimit).1, fun most hlimit => (h most hlimit).2⟩,
    fun h most hlimit => ⟨h.1 most hlimit, h.2 most hlimit⟩⟩

theorem fits_reverse : Fits limit [current.reverse] ↔ Fits limit [current] := by
  simp [Fits]

/-! ## Drafts -/

namespace Draft

/-- The draft after one more value. -/
def add (draft : Draft) (l : Int) : Draft :=
  if l = 0 then { draft with closed := draft.current.reverse :: draft.closed, current := [] }
  else { draft with current := l :: draft.current }

/-- The clause under construction is one that may be continued. -/
structure Sound (limit : Option Int) (draft : Draft) : Prop where
  not_zero : 0 ∉ draft.current.reverse
  fits : Fits limit [draft.current]

variable {draft : Draft} {l : Int}

theorem sound_start (sizes : Option (Nat × Nat)) : Sound limit { sizes := sizes } :=
  ⟨List.not_mem_nil, fits_nil limit⟩

theorem add_zero : draft.add 0 =
    { draft with closed := draft.current.reverse :: draft.closed, current := [] } :=
  if_pos rfl

theorem add_of_ne (hl : l ≠ 0) : draft.add l = { draft with current := l :: draft.current } :=
  if_neg hl

@[simp] theorem sizes_add : (draft.add l).sizes = draft.sizes := by
  rw [add]
  split <;> rfl

theorem Sound.add (hdraft : draft.Sound limit) (hfits : Fits limit [(draft.add l).current]) :
    (draft.add l).Sound limit := by
  refine ⟨?_, hfits⟩
  by_cases hl : l = 0
  · rw [hl, add_zero]
    exact List.not_mem_nil
  · rw [add_of_ne hl, List.reverse_cons, List.mem_append, List.mem_singleton]
    rintro (h | h)
    · exact hdraft.not_zero h
    · exact hl h.symm

/-- The clauses of a draft are those that its values spell. -/
theorem clauses_foldl_add (hzero : 0 ∉ draft.current.reverse) (values : List Int) :
    (values.foldl add draft).clauses =
      draft.closed.reverse ++ clausesOf (draft.current.reverse ++ values) := by
  induction values generalizing draft with
  | nil => simp [clauses, clausesOf_of_not_mem hzero]
  | cons l rest ih =>
      rw [List.foldl_cons]
      by_cases hl : l = 0
      · rw [hl, add_zero, ih List.not_mem_nil, clausesOf_append_zero hzero]
        simp
      · have hmore : 0 ∉ (l :: draft.current).reverse := by
          simpa [Ne.symm hl] using hzero
        rw [add_of_ne hl, ih hmore]
        simp

@[simp] theorem sizes_foldl_add (values : List Int) :
    (values.foldl add draft).sizes = draft.sizes := by
  induction values generalizing draft with
  | nil => rfl
  | cons l rest ih => rw [List.foldl_cons, ih, sizes_add]

/-- Whether a clause fits can be seen while it grows. -/
theorem fits_add (hdraft : draft.Sound limit) (values : List Int) :
    Fits limit [(draft.add l).current] ∧
        Fits limit (clausesOf ((draft.add l).current.reverse ++ values)) ↔
      Fits limit (clausesOf (draft.current.reverse ++ l :: values)) := by
  by_cases hl : l = 0
  · have hcurrent : (draft.add l).current = [] := by rw [hl, add_zero]
    rw [hcurrent, hl, clausesOf_append_zero hdraft.not_zero,
      fits_cons draft.current.reverse, fits_reverse]
    exact ⟨fun h => ⟨hdraft.fits, h.2⟩, fun h => ⟨fits_nil limit, h.2⟩⟩
  · have hcurrent : (draft.add l).current = l :: draft.current := by rw [add_of_ne hl]
    have hzero : 0 ∉ (l :: draft.current).reverse := by
      simpa [Ne.symm hl] using hdraft.not_zero
    have happend : (l :: draft.current).reverse ++ values =
        draft.current.reverse ++ l :: values := by simp
    rw [hcurrent, happend]
    refine ⟨fun h => h.2, fun h => ⟨?_, h⟩⟩
    rw [← happend] at h
    -- the clause is part of one that fits
    intro most hlimit clause hclause _
    obtain rfl := List.mem_singleton.1 hclause
    obtain ⟨whole, hwhole, hbegins⟩ := exists_prefix_clausesOf hzero (by simp) values
    have hlength := hbegins.length_le
    rw [List.length_reverse] at hlength
    have hne : whole ≠ [] := by
      rintro rfl
      simp at hlength
    have hmost := h most hlimit whole hwhole hne
    omega

end Draft

/-! ## Tokens -/

/-- The integers that tokens spell, one each. -/
def Spells (tokens : List String) (values : List Int) : Prop :=
  List.Forall₂ (fun token l => readInteger token = .ok l) tokens values

theorem Spells.exists_of_mem {tokens : List String} {values : List Int} (h : Spells tokens values)
    {token : String} (htoken : token ∈ tokens) : ∃ l, readInteger token = .ok l := by
  unfold Spells at h
  induction h with
  | nil => cases htoken
  | cons hfirst _ ih =>
      rcases List.mem_cons.1 htoken with rfl | hrest
      · exact ⟨_, hfirst⟩
      · exact ih hrest

/-- What is accepted when the limit, if there is one, is an integer. -/
def Options.ofLimit (allowEmpty : Bool) (limit : Option Int) : Options :=
  ⟨allowEmpty, limit.map .int⟩

theorem lessThan?_int (m n : Int) : (Value.int m).lessThan? n = some (decide (m < n)) := by
  have hlt : (some (compare m n) == some Ordering.lt) = decide (m < n) := by
    rw [Bool.eq_iff_iff, beq_iff_eq, decide_eq_true_eq, Option.some_inj, Int.compare_eq_lt]
  exact congrArg some hlt

variable {allowEmpty : Bool} {numVars : Nat} {draft next : Draft}

theorem readToken_eq_ok_iff {token : String} :
    readToken (.ofLimit allowEmpty limit) numVars draft token = .ok next ↔
      ∃ l, readInteger token = .ok l ∧ l.natAbs ≤ numVars ∧
        Fits limit [(draft.add l).current] ∧ next = draft.add l := by
  rw [readToken]
  cases readInteger token with
  | error e => simp
  | ok l =>
      simp only [Except.ok.injEq, exists_eq_left']
      by_cases hl : l = 0
      · simp [hl, Draft.add_zero, fits_nil, eq_comm]
      · rw [if_neg hl, Draft.add_of_ne hl]
        by_cases hrange : numVars < l.natAbs
        · rw [if_pos hrange]
          exact ⟨nofun, fun h => absurd hrange (Nat.not_lt.2 h.1)⟩
        · have hle : l.natAbs ≤ numVars := Nat.le_of_not_lt hrange
          rw [if_neg hrange]
          cases limit with
          | none => simp [Options.ofLimit, Fits, hle, eq_comm]
          | some most =>
              have hfits : Fits (some most) [l :: draft.current] ↔
                  ¬most < (l :: draft.current).length := by
                simp [Fits]
              simp only [Options.ofLimit, Option.map_some, lessThan?_int, hfits, hle, true_and]
              by_cases hlong : most < (l :: draft.current).length
              · rw [decide_eq_true hlong]
                exact ⟨nofun, fun h => absurd hlong h.1⟩
              · rw [decide_eq_false hlong]
                exact ⟨fun h => ⟨hlong, (Except.ok.inj h).symm⟩,
                  fun h => congrArg Except.ok h.2.symm⟩

/-- The limit, if there is one, has few enough digits to be told. -/
def Tellable (limit : Option Int) : Prop :=
  ∀ most, limit = some most → isWritable most = true

theorem ofLimit_int (most : Int) : Cause.ofLimit (.int most) =
    if isWritable most = true then .clauseTooLong (.int most) else .unwritable := by
  rw [Cause.ofLimit, Value.isWritable]

/-- What becomes of a literal that is in range, under a limit. -/
theorem readToken_of_literal {token : String} {l most : Int} (hread : readInteger token = .ok l)
    (hl : l ≠ 0) (hrange : l.natAbs ≤ numVars) :
    readToken (.ofLimit allowEmpty (some most)) numVars draft token =
      if most < draft.current.length + 1 then .error (.ofLimit (.int most))
      else .ok (draft.add l) := by
  simp only [readToken, hread, if_neg hl, if_neg (Nat.not_lt.2 hrange), Options.ofLimit,
    Option.map_some, lessThan?_int, List.length_cons, Int.natCast_add, Int.natCast_one]
  by_cases hlong : most < draft.current.length + 1
  · rw [decide_eq_true hlong, if_pos hlong]
  · rw [decide_eq_false hlong, if_neg hlong, Draft.add_of_ne hl]

/-- A token cannot be told to be wrong if it is a literal in range that makes the clause under
construction longer than a limit with too many digits. -/
theorem readToken_eq_unwritable_iff {token : String} :
    readToken (.ofLimit allowEmpty limit) numVars draft token = .error .unwritable ↔
      ∃ l most, readInteger token = .ok l ∧ l ≠ 0 ∧ l.natAbs ≤ numVars ∧ limit = some most ∧
        most < draft.current.length + 1 ∧ isWritable most = false := by
  constructor
  · intro h
    have hrefused := h
    rw [readToken] at h
    split at h
    · cases h
    · next l hread =>
      split at h
      · cases h
      · next hl =>
        split at h
        · cases h
        · next hrange =>
          have hle : l.natAbs ≤ numVars := Nat.le_of_not_lt hrange
          cases limit with
          | none => cases h
          | some most =>
              rw [readToken_of_literal hread hl hle] at hrefused
              split at hrefused
              · next hlong =>
                refine ⟨l, most, hread, hl, hle, rfl, hlong, ?_⟩
                rw [ofLimit_int] at hrefused
                split at hrefused
                · cases hrefused
                · next hdigits => simpa using hdigits
              · cases hrefused
  · rintro ⟨l, most, hread, hl, hle, rfl, hlong, hdigits⟩
    rw [readToken_of_literal hread hl hle, if_pos hlong, ofLimit_int, hdigits]
    rfl

/-- A token that is not accepted is at fault itself, unless it cannot be told what is wrong. -/
theorem blamesText_of_readToken {token : String} {cause : Cause}
    (h : readToken (.ofLimit allowEmpty limit) numVars draft token = .error cause) :
    cause.blamesText = true ∨ cause = .unwritable := by
  have hrefused := h
  rw [readToken] at h
  split at h
  · cases h
    exact .inl rfl
  · next l hread =>
    split at h
    · cases h
    · next hl =>
      split at h
      · cases h
        exact .inl rfl
      · next hrange =>
        cases limit with
        | none => cases h
        | some most =>
            rw [readToken_of_literal hread hl (Nat.le_of_not_lt hrange)] at hrefused
            split at hrefused
            · obtain rfl := Except.error.inj hrefused
              rw [ofLimit_int]
              split
              · exact .inl rfl
              · exact .inr rfl
            · cases hrefused

/-- **Tokens are accepted when their values are in range and the clauses of these fit.** -/
theorem foldlM_readToken_eq_ok_iff (hdraft : draft.Sound limit) {tokens : List String} :
    tokens.foldlM (readToken (.ofLimit allowEmpty limit) numVars) draft = .ok next ↔
      ∃ values, Spells tokens values ∧ (∀ l ∈ values, l.natAbs ≤ numVars) ∧
        Fits limit (clausesOf (draft.current.reverse ++ values)) ∧
        next = values.foldl Draft.add draft := by
  induction tokens generalizing draft with
  | nil =>
      have hfits : Fits limit (clausesOf draft.current.reverse) := by
        rw [clausesOf_of_not_mem hdraft.not_zero]
        split
        · simp [Fits]
        · exact fits_reverse.2 hdraft.fits
      simp only [Spells, List.forall₂_nil_left_iff, exists_eq_left, List.append_nil,
        List.not_mem_nil, false_imp_iff, implies_true, hfits, true_and, List.foldl_nil,
        List.foldlM_nil]
      exact ⟨fun h => (Except.ok.inj h).symm, fun h => congrArg Except.ok h.symm⟩
  | cons token rest ih =>
      rw [List.foldlM_cons, bind_eq_ok_iff]
      constructor
      · rintro ⟨after, hafter, hrest⟩
        obtain ⟨l, hread, hrange, hfits, rfl⟩ := readToken_eq_ok_iff.1 hafter
        obtain ⟨values, hspells, hranges, hmore, rfl⟩ := (ih (hdraft.add hfits)).1 hrest
        exact ⟨l :: values, .cons hread hspells, List.forall_mem_cons.2 ⟨hrange, hranges⟩,
          (Draft.fits_add hdraft values).1 ⟨hfits, hmore⟩, rfl⟩
      · rintro ⟨values, hspells, hranges, hfits, rfl⟩
        cases hspells with
        | cons hread hspells =>
            obtain ⟨hrange, hranges⟩ := List.forall_mem_cons.1 hranges
            obtain ⟨hfirst, hmore⟩ := (Draft.fits_add hdraft _).2 hfits
            exact ⟨_, readToken_eq_ok_iff.2 ⟨_, hread, hrange, hfirst, rfl⟩,
              (ih (hdraft.add hfirst)).2 ⟨_, hspells, hranges, hmore, rfl⟩⟩

end TrailSat.Dimacs
