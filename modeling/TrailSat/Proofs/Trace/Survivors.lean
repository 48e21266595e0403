import TrailSat.Proofs.Trace.Lasting

/-!
# What the text of a trace keeps

A rendered trace has two readers, and `render_keeps` says what each of them finds: the literals of
all entries with a known tag, and the entries that survive.  An entry survives if its tag is known
and no flip of its level or a smaller one is behind it.

The steps of the entries with a known tag are on the text, so the survivors are the lasting ones
among these (`map_step_surviving`): whether a step replaces another is told by the entries
themselves (`replaces_step_iff`), and only an entry with a known tag replaces anything.
-/

namespace TrailSat.Trace

open Number Text

variable {entries : List Entry} {e later : Entry}

/-- A later entry makes an entry obsolete: it is a flip of the same level or a smaller one. -/
def Entry.Replaces (later e : Entry) : Prop :=
  later.tag = "BT" ∧ later.level ≤ e.level

instance (later e : Entry) : Decidable (later.Replaces e) :=
  inferInstanceAs (Decidable (_ ∧ _))

/-- The entries with a known tag that no later entry replaces. -/
def surviving : List Entry → List Entry
  | [] => []
  | e :: rest =>
    if isTag e.tag ∧ ¬∃ later ∈ rest, later.Replaces e then e :: surviving rest
    else surviving rest

theorem replaces_step_iff : later.step.Replaces e.step ↔ later.Replaces e :=
  Iff.rfl

theorem tagged_surviving (entries : List Entry) :
    tagged (surviving entries) = surviving entries := by
  induction entries with
  | nil => rfl
  | cons e rest ih =>
      rw [surviving]
      split
      · next hsurvives =>
        have hcons : tagged (e :: surviving rest) = e :: tagged (surviving rest) :=
          List.filter_cons_of_pos hsurvives.1
        rw [hcons, ih]
      · exact ih

/-- Nothing is replaced by an entry with an unknown tag. -/
theorem exists_replaces_tagged_iff (e : Entry) (rest : List Entry) :
    (∃ later ∈ (tagged rest).map Entry.step, later.Replaces e.step) ↔
      ∃ later ∈ rest, later.Replaces e := by
  constructor
  · rintro ⟨step, hstep, hreplaces⟩
    obtain ⟨later, hlater, rfl⟩ := List.mem_map.1 hstep
    exact ⟨later, List.mem_of_mem_filter hlater, replaces_step_iff.1 hreplaces⟩
  · rintro ⟨later, hlater, hreplaces⟩
    -- what replaces an entry is a flip, and the tag of flips is known
    have htag : isTag later.tag = true := isTag_iff.2 (.inr hreplaces.1)
    have hmem : later ∈ tagged rest := List.mem_filter.2 ⟨hlater, htag⟩
    exact ⟨later.step, List.mem_map_of_mem hmem, replaces_step_iff.2 hreplaces⟩

/-- The survivors are the steps of the text that last. -/
theorem map_step_surviving (entries : List Entry) :
    (surviving entries).map Entry.step = lasting ((tagged entries).map Entry.step) := by
  induction entries with
  | nil => rfl
  | cons e rest ih =>
      rw [surviving]
      by_cases htag : isTag e.tag = true
      · have htagged : tagged (e :: rest) = e :: tagged rest := List.filter_cons_of_pos htag
        rw [htagged, List.map_cons, lasting, ← ih]
        by_cases hreplaced : ∃ later ∈ rest, later.Replaces e
        · rw [if_neg fun hsurvives => hsurvives.2 hreplaced,
            if_pos ((exists_replaces_tagged_iff e rest).2 hreplaced)]
        · rw [if_pos ⟨htag, hreplaced⟩, List.map_cons,
            if_neg fun hlater => hreplaced ((exists_replaces_tagged_iff e rest).1 hlater)]
      · have htagged : tagged (e :: rest) = tagged rest := List.filter_cons_of_neg htag
        rw [if_neg fun hsurvives => htag hsurvives.1, htagged, ih]

theorem key_render_eq_surviving (hlevels : ∀ e ∈ entries, IsReadable e.level) :
    key (render entries) = .ok (render (surviving entries)) := by
  calc key (render entries)
      = .ok (stepsText (keySteps ((tagged entries).map Entry.step))) := key_render hlevels
    _ = .ok (stepsText ((surviving entries).map Entry.step)) := by
        rw [keySteps_eq_lasting, map_step_surviving]
    _ = .ok (render (surviving entries)) := by rw [render_eq_steps, tagged_surviving]

/-- **The text of a trace keeps what its readers look for.**  The one finds the literals of all
entries with a known tag, the other the text of those entries that survive. -/
theorem render_keeps (hreadable : ∀ e ∈ entries, IsReadable e.literal ∧ IsReadable e.level) :
    literals (render entries) = .ok ((entries.filter fun e => e.tag = "D" ∨ e.tag = "BT").map
        Entry.literal) ∧
      key (render entries) = .ok (render (surviving entries)) := by
  have htagged : (entries.filter fun e => e.tag = "D" ∨ e.tag = "BT") = tagged entries := by
    refine List.filter_congr fun e _ => ?_
    exact Bool.eq_iff_iff.2 (decide_eq_true_iff.trans isTag_iff.symm)
  rw [htagged]
  exact ⟨literals_render fun e he => (hreadable e he).1,
    key_render_eq_surviving fun e he => (hreadable e he).2⟩

/-- Levels that fall and that are negative, and tags that only look like known ones. -/
theorem render_keeps_of_mixed :
    let entries : List Entry := [⟨"D", 4, -3⟩, ⟨"D", -12, 2⟩, ⟨"D 7", 5, 0⟩, ⟨"BT", 12, 2⟩,
      ⟨"", 9, 1⟩, ⟨"D", 3, 5⟩, ⟨"bt", 6, -9⟩, ⟨"BT", -3, 4⟩, ⟨"D", 8, 3⟩]
    let text := "D 4 L -3 D -12 L 2 BT 12 L 2 D 3 L 5 BT -3 L 4 D 8 L 3"
    (∀ e ∈ entries, IsReadable e.literal ∧ IsReadable e.level) ∧ render entries = text ∧
      literals text = .ok [4, -12, 12, 3, -3, 8] ∧
      key text = .ok "D 4 L -3 BT 12 L 2 BT -3 L 4 D 8 L 3" := by
  intro entries text
  have hsmall : ∀ e ∈ entries,
      e.literal.natAbs < Value.rowBound ∧ e.level.natAbs < Value.rowBound := by
    decide
  have hreadable : ∀ e ∈ entries, IsReadable e.literal ∧ IsReadable e.level := fun e he =>
    ⟨isReadable_of_lt (hsmall e he).1, isReadable_of_lt (hsmall e he).2⟩
  have htext : render entries = text := by decide +kernel
  have hkept : render (surviving entries) = "D 4 L -3 BT 12 L 2 BT -3 L 4 D 8 L 3" := by
    decide +kernel
  obtain ⟨hliterals, hkey⟩ := render_keeps hreadable
  rw [htext] at hliterals hkey
  rw [hkept] at hkey
  exact ⟨hreadable, htext, hliterals, hkey⟩

end TrailSat.Trace
