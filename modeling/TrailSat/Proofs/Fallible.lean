import Mathlib.Data.List.Forall2

/-!
# Steps that may fail

Readers and checks are rows of steps in `Except`: one after the other by `bind`, item by item by
`mapM`, or with a state by `foldlM`.  They succeed when every step does (`bind_eq_ok_iff`,
`mapM_eq_ok_iff`), and fail with what one of the steps fails with (`bind_eq_error_iff`,
`exists_of_mapM_eq_error`), which is the first that does (`foldlM_eq_error_iff`).  What every step
keeps is kept by the whole row (`foldlM_preserves`).
-/

namespace TrailSat

variable {Failure Item Result Kept : Type}

theorem eq_ok_of_toOption {outcome : Except Failure Result} {result : Result}
    (h : outcome.toOption = some result) : outcome = .ok result := by
  cases outcome with
  | error e => cases h
  | ok found => exact congrArg Except.ok (Option.some.inj h)

theorem bind_eq_ok_iff {first : Except Failure Item} {next : Item → Except Failure Result}
    {result : Result} :
    (first >>= next) = .ok result ↔ ∃ item, first = .ok item ∧ next item = .ok result := by
  cases first with
  | error e => exact ⟨nofun, fun ⟨_, hfirst, _⟩ => nomatch hfirst⟩
  | ok item => exact ⟨fun h => ⟨item, rfl, h⟩, fun ⟨_, hitem, h⟩ => Except.ok.inj hitem ▸ h⟩

theorem bind_eq_error_iff {first : Except Failure Item} {next : Item → Except Failure Result}
    {e : Failure} :
    (first >>= next) = .error e ↔
      first = .error e ∨ ∃ item, first = .ok item ∧ next item = .error e := by
  cases first with
  | error other =>
      refine ⟨fun h => .inl (congrArg Except.error (Except.error.inj h)), ?_⟩
      rintro (h | ⟨_, h, _⟩)
      · exact congrArg Except.error (Except.error.inj h)
      · cases h
  | ok item =>
      refine ⟨fun h => .inr ⟨item, rfl, h⟩, ?_⟩
      rintro (h | ⟨_, hitem, h⟩)
      · cases h
      · exact Except.ok.inj hitem ▸ h

theorem mapError_eq_error_iff {Report : Type} {outcome : Except Failure Result}
    {report : Failure → Report} {r : Report} :
    outcome.mapError report = .error r ↔ ∃ e, outcome = .error e ∧ report e = r := by
  cases outcome with
  | error e =>
      refine ⟨fun h => ⟨e, rfl, Except.error.inj h⟩, ?_⟩
      rintro ⟨_, he, rfl⟩
      exact congrArg (Except.error ∘ report) (Except.error.inj he)
  | ok result => exact ⟨nofun, fun ⟨_, he, _⟩ => nomatch he⟩

theorem mapError_eq_ok_iff {Report : Type} {outcome : Except Failure Result}
    {report : Failure → Report} {result : Result} :
    outcome.mapError report = .ok result ↔ outcome = .ok result := by
  cases outcome with
  | error e => exact ⟨nofun, nofun⟩
  | ok found => exact ⟨fun h => congrArg Except.ok (Except.ok.inj h), fun h => h ▸ rfl⟩

theorem map_eq_ok_iff {outcome : Except Failure Item} {change : Item → Result} {result : Result} :
    outcome.map change = .ok result ↔ ∃ item, outcome = .ok item ∧ change item = result := by
  cases outcome with
  | error e => exact ⟨nofun, nofun⟩
  | ok item =>
      refine ⟨fun h => ⟨item, rfl, Except.ok.inj h⟩, ?_⟩
      rintro ⟨_, hitem, rfl⟩
      exact congrArg (Except.ok ∘ change) (Except.ok.inj hitem)

/-- All items are accepted when each of them is. -/
theorem mapM_eq_ok_iff {step : Item → Except Failure Result} {items : List Item}
    {results : List Result} :
    items.mapM step = .ok results ↔
      List.Forall₂ (fun item result => step item = .ok result) items results := by
  induction items generalizing results with
  | nil =>
      rw [List.mapM_nil, List.forall₂_nil_left_iff]
      exact ⟨fun h => (Except.ok.inj h).symm, fun h => congrArg Except.ok h.symm⟩
  | cons item rest ih =>
      simp only [List.mapM_cons, bind_eq_ok_iff, ih]
      constructor
      · rintro ⟨result, hitem, results, hrest, h⟩
        obtain rfl := Except.ok.inj h
        exact .cons hitem hrest
      · intro h
        cases h with
        | cons hitem hrest => exact ⟨_, hitem, _, hrest, rfl⟩

/-- If the items can be told from the results, so can the rows of items. -/
theorem mapM_eq_ok_iff_map {step : Item → Except Failure Result} {itemOf : Result → Item}
    (h : ∀ item result, step item = .ok result ↔ itemOf result = item) {items : List Item}
    {results : List Result} : items.mapM step = .ok results ↔ results.map itemOf = items := by
  simp only [mapM_eq_ok_iff, h, eq_comm (a := itemOf _)]
  rw [eq_comm, ← List.forall₂_eq_eq_eq, List.forall₂_map_right_iff]

theorem exists_of_mapM_eq_error {step : Item → Except Failure Result} {items : List Item}
    {e : Failure} (h : items.mapM step = .error e) : ∃ item ∈ items, step item = .error e := by
  induction items with
  | nil => cases h
  | cons item rest ih =>
      rw [List.mapM_cons, bind_eq_error_iff] at h
      rcases h with h | ⟨result, -, h⟩
      · exact ⟨item, List.mem_cons_self, h⟩
      · rcases bind_eq_error_iff.1 h with h | ⟨results, -, h⟩
        · obtain ⟨later, hlater, hstep⟩ := ih h
          exact ⟨later, List.mem_cons_of_mem _ hlater, hstep⟩
        · cases h

theorem exists_error_iff {outcome : Except Failure Result} :
    (∃ e, outcome = .error e) ↔ ∀ result, outcome ≠ .ok result := by
  cases outcome with
  | error e => exact ⟨fun _ => nofun, fun _ => ⟨e, rfl⟩⟩
  | ok result => exact ⟨nofun, fun h => absurd rfl (h result)⟩

/-! ## Rows of steps -/

variable {step : Kept → Item → Except Failure Kept} {kept : Kept} {items : List Item}

/-- A row of steps fails at the first that does. -/
theorem foldlM_eq_error_iff {e : Failure} :
    items.foldlM step kept = .error e ↔
      ∃ before item after former, items = before ++ item :: after ∧
        before.foldlM step kept = .ok former ∧ step former item = .error e := by
  induction items generalizing kept with
  | nil => simp [pure, Except.pure]
  | cons first rest ih =>
      rw [List.foldlM_cons, bind_eq_error_iff]
      constructor
      · rintro (h | ⟨next, hfirst, h⟩)
        · exact ⟨[], first, rest, kept, rfl, rfl, h⟩
        · obtain ⟨before, item, after, former, rfl, hbefore, hitem⟩ := ih.1 h
          refine ⟨first :: before, item, after, former, rfl, ?_, hitem⟩
          exact bind_eq_ok_iff.2 ⟨next, hfirst, hbefore⟩
      · rintro ⟨before, item, after, former, hitems, hbefore, hitem⟩
        cases before with
        | nil =>
            obtain ⟨rfl, -⟩ := List.cons.inj hitems
            obtain rfl := Except.ok.inj hbefore
            exact .inl hitem
        | cons head before =>
            obtain ⟨rfl, hrest⟩ := List.cons.inj hitems
            obtain ⟨next, hfirst, hbefore⟩ := bind_eq_ok_iff.1 hbefore
            exact .inr ⟨next, hfirst, ih.2 ⟨before, item, after, former, hrest, hbefore, hitem⟩⟩

/-- A row of steps fails with what one of them fails with. -/
theorem exists_of_foldlM_eq_error {e : Failure} (h : items.foldlM step kept = .error e) :
    ∃ former, ∃ item ∈ items, step former item = .error e := by
  obtain ⟨before, item, after, former, rfl, -, hitem⟩ := foldlM_eq_error_iff.1 h
  exact ⟨former, item, by simp, hitem⟩

/-- Every step of a row that succeeds is reached, and succeeds. -/
theorem exists_of_foldlM_eq_ok {before after : List Item} {item : Item} {result : Kept}
    (h : (before ++ item :: after).foldlM step kept = .ok result) :
    ∃ former next, before.foldlM step kept = .ok former ∧ step former item = .ok next := by
  rw [List.foldlM_append, bind_eq_ok_iff] at h
  obtain ⟨former, hbefore, h⟩ := h
  rw [List.foldlM_cons, bind_eq_ok_iff] at h
  obtain ⟨next, hitem, -⟩ := h
  exact ⟨former, next, hbefore, hitem⟩

/-- What every step keeps is kept by a row of steps that succeeds. -/
theorem foldlM_preserves (Holds : Kept → Prop) {result : Kept}
    (hstep : ∀ former, ∀ item ∈ items, ∀ next, Holds former → step former item = .ok next →
      Holds next)
    (hkept : Holds kept) (h : items.foldlM step kept = .ok result) : Holds result := by
  induction items generalizing kept with
  | nil =>
      obtain rfl := Except.ok.inj h
      exact hkept
  | cons item rest ih =>
      rw [List.foldlM_cons, bind_eq_ok_iff] at h
      obtain ⟨next, hitem, hrest⟩ := h
      exact ih (fun former later hlater => hstep former later (List.mem_cons_of_mem _ hlater))
        (hstep kept item List.mem_cons_self next hkept hitem) hrest

end TrailSat
