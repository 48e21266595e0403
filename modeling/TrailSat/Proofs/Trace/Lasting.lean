import TrailSat.Proofs.Fallible
import TrailSat.Proofs.Text.Strip
import TrailSat.Proofs.Trace.Rendering

/-!
# The steps that no later flip replaces

A key trace is made by looking back: whenever a flip is read, steps that have been kept are dropped.
`lasting` looks ahead instead, and keeps a step if there is no flip of its level or of a smaller one
behind it.  The levels may be any integers in any order.

The two come to the same (`keySteps_eq_lasting`).  The induction is on the steps that are still to
be read, and what carries it is what the rest makes of the steps kept so far: the first step of the
rest drops those that it replaces itself, and the others drop the rest.

Nothing is lost between the text and its steps either.  The steps of a text are legible
(`legible_of_spells`), so a key trace is read as the steps that it was made of, and since none of
them replaces another it is its own key trace.
-/

namespace TrailSat.Trace

open Number Text

/-- The tokens of a text spell these steps: every step is a tag, a literal, the letter `L` and the
spelling of a level. -/
inductive SpellsSteps : List String → List Step → Prop where
  | nil : SpellsSteps [] []
  | cons {literal level : String} {n : Int} {tokens : List String} {steps : List Step}
      (kind : Kind) (hlevel : readInteger level = .ok n) (hrest : SpellsSteps tokens steps) :
      SpellsSteps (kind.tag :: literal :: "L" :: level :: tokens) (⟨kind.tag, literal, n⟩ :: steps)

/-- A later step makes a step obsolete: it is a flip of the same level or a smaller one. -/
def Step.Replaces (later step : Step) : Prop :=
  later.tag = Kind.flip.tag ∧ later.level ≤ step.level

instance (later step : Step) : Decidable (later.Replaces step) :=
  inferInstanceAs (Decidable (_ ∧ _))

/-- The steps that no later step replaces. -/
def lasting : List Step → List Step
  | [] => []
  | step :: rest =>
    if ∃ later ∈ rest, later.Replaces step then lasting rest else step :: lasting rest

variable {tokens : List String} {steps kept : List Step} {step : Step}

/-! ## Looking back and looking ahead -/

/-- Reading a step drops the steps that it replaces. -/
theorem keep_eq (kept : List Step) (step : Step) :
    keep kept step = kept.filter (fun earlier => ¬step.Replaces earlier) ++ [step] := by
  unfold keep
  congr 1
  by_cases hflip : step.tag = Kind.flip.tag
  · rw [if_pos (beq_iff_eq.2 hflip)]
    refine List.filter_congr fun earlier _ => decide_eq_decide.2 ?_
    rw [Step.Replaces, and_iff_right hflip, Int.not_le]
  · -- only a flip replaces steps, so nothing is dropped
    rw [if_neg (by simpa using hflip), List.filter_eq_self.2]
    intro earlier _
    exact decide_eq_true fun hreplaces => hflip hreplaces.1

theorem foldl_keep_eq (steps kept : List Step) :
    steps.foldl keep kept =
      kept.filter (fun earlier => ¬∃ later ∈ steps, later.Replaces earlier) ++ lasting steps := by
  induction steps generalizing kept with
  | nil => simp [lasting]
  | cons step rest ih =>
      -- a step kept so far is dropped by this step or by one of the rest
      have hdrop (earlier : Step) :
          (¬∃ later ∈ step :: rest, later.Replaces earlier) ↔
            (¬∃ later ∈ rest, later.Replaces earlier) ∧ ¬step.Replaces earlier := by
        rw [List.exists_mem_cons_iff, not_or, and_comm]
      rw [List.foldl_cons, ih, keep_eq, List.filter_append, List.filter_filter, List.append_assoc]
      congr 1
      · refine List.filter_congr fun earlier _ => ?_
        rw [← Bool.decide_and]
        exact decide_eq_decide.2 (hdrop earlier).symm
      · rw [lasting]
        by_cases hreplaced : ∃ later ∈ rest, later.Replaces step
        · rw [if_pos hreplaced, List.filter_cons_of_neg (by simpa using hreplaced)]
          rfl
        · rw [if_neg hreplaced, List.filter_cons_of_pos (by simpa using hreplaced)]
          rfl

theorem keySteps_eq_lasting (steps : List Step) : keySteps steps = lasting steps := by
  rw [keySteps, foldl_keep_eq]
  rfl

/-! ## Lasting steps -/

theorem lasting_sublist (steps : List Step) : (lasting steps).Sublist steps := by
  induction steps with
  | nil => exact .slnil
  | cons step rest ih =>
      rw [lasting]
      split
      · exact ih.cons step
      · exact ih.cons_cons step

/-- No lasting step replaces another one. -/
theorem pairwise_lasting (steps : List Step) :
    (lasting steps).Pairwise fun step later => ¬later.Replaces step := by
  induction steps with
  | nil => exact .nil
  | cons step rest ih =>
      rw [lasting]
      split
      · exact ih
      · next hlasts =>
        refine ih.cons fun later hlater hreplaces => hlasts ⟨later, ?_, hreplaces⟩
        exact (lasting_sublist rest).subset hlater

theorem lasting_of_pairwise (h : steps.Pairwise fun step later => ¬later.Replaces step) :
    lasting steps = steps := by
  induction h with
  | nil => rfl
  | @cons step rest hstep hrest ih =>
      have hlasts : ¬∃ later ∈ rest, later.Replaces step := by
        rintro ⟨later, hlater, hreplaces⟩
        exact hstep later hlater hreplaces
      rw [lasting, if_neg hlasts, ih]

/-- The levels of lasting flips are above all levels in front of them. -/
theorem level_lt_of_pairwise (h : steps.Pairwise fun step later => ¬later.Replaces step) :
    steps.Pairwise fun step later => later.tag = Kind.flip.tag → step.level < later.level := by
  refine h.imp fun hnot hflip => ?_
  rw [Step.Replaces, and_iff_right hflip, Int.not_le] at hnot
  exact hnot

/-! ## The steps of a text -/

theorem exists_kind_of_isTag {tag : String} (h : isTag tag = true) :
    ∃ kind : Kind, tag = kind.tag := by
  rcases isTag_iff.1 h with rfl | rfl
  · exact ⟨.decision, rfl⟩
  · exact ⟨.flip, rfl⟩

theorem readSteps_of_spells (h : SpellsSteps tokens steps) : readSteps tokens = .ok steps := by
  induction h with
  | nil => rfl
  | cons kind hlevel hrest ih =>
      rw [readSteps, isTag_tag]
      simp only [hlevel, ih]
      rfl

theorem spells_of_readSteps (h : readSteps tokens = .ok steps) : SpellsSteps tokens steps := by
  fun_induction readSteps tokens generalizing steps with
  | case1 =>
      cases h
      exact .nil
  | case5 tag htag literal mark level more hmark n hlevel ih =>
      -- the only case in which four tokens are taken as a step
      obtain ⟨kind, rfl⟩ := exists_kind_of_isTag (by simpa using htag)
      obtain rfl : mark = "L" := by simpa using hmark
      cases hmore : readSteps more with
      | error e => simp [hmore, Except.map] at h
      | ok rest =>
          obtain rfl : (⟨kind.tag, literal, n⟩ :: rest : List Step) = steps := by
            simpa [hmore, Except.map] using h
          exact .cons kind hlevel (ih hmore)
  | case2 | case3 | case4 | case6 => cases h

theorem legible_of_spells (h : SpellsSteps tokens steps) (htokens : ∀ t ∈ tokens, IsWord t) :
    ∀ step ∈ steps, step.Legible := by
  induction h with
  | nil => exact nofun
  | cons kind hlevel hrest ih =>
      simp only [List.forall_mem_cons] at htokens
      obtain ⟨-, hliteral, -, -, hmore⟩ := htokens
      exact List.forall_mem_cons.2
        ⟨⟨isTag_tag kind, hliteral, isReadable_of_readInteger hlevel⟩, ih hmore⟩

theorem legible_of_mem_lasting {trace : String} (h : SpellsSteps (words trace) steps) :
    ∀ step ∈ lasting steps, step.Legible := fun step hstep =>
  legible_of_spells h (fun _ => isWord_of_mem_words) step ((lasting_sublist steps).subset hstep)

theorem spells_words_stepsText (h : ∀ step ∈ steps, step.Legible) :
    SpellsSteps (words (stepsText steps)) steps := by
  rw [words_stepsText h]
  exact spells_of_readSteps (readSteps_tokens h)

theorem key_of_spells {trace : String} (h : SpellsSteps (words trace) steps) :
    key trace = .ok (stepsText (lasting steps)) := by
  rw [key, readSteps_of_spells h, ← keySteps_eq_lasting]
  rfl

theorem exists_spells_of_key {trace kept : String} (h : key trace = .ok kept) :
    ∃ steps, SpellsSteps (words trace) steps := by
  obtain ⟨steps, hsteps, -⟩ := bind_eq_ok_iff.1 h
  exact ⟨steps, spells_of_readSteps hsteps⟩

/-- **A key trace consists of the steps that no later flip replaces**, with their levels in plain
decimals, and only a text that spells steps has one.  It is its own key trace, and every flip in it
is of a greater level than all steps in front of it. -/
theorem key_eq_lasting (trace : String) :
    (∀ kept, key trace = .ok kept ↔
      ∃ steps, SpellsSteps (words trace) steps ∧
        kept = " ".intercalate ((lasting steps).flatMap fun step =>
          [step.tag, step.literal, "L", toString step.level])) ∧
      ((∃ e, key trace = .error e) ↔ ¬∃ steps, SpellsSteps (words trace) steps) ∧
      ∀ kept, key trace = .ok kept →
        key kept = .ok kept ∧
          ∃ steps, SpellsSteps (words kept) steps ∧
            steps.Pairwise fun step later => later.tag = "BT" → step.level < later.level := by
  have hread : ∀ kept, key trace = .ok kept ↔
      ∃ steps, SpellsSteps (words trace) steps ∧ kept = stepsText (lasting steps) := by
    intro kept
    constructor
    · intro hkey
      obtain ⟨steps, hsteps⟩ := exists_spells_of_key hkey
      exact ⟨steps, hsteps, Except.ok.inj (hkey.symm.trans (key_of_spells hsteps))⟩
    · rintro ⟨steps, hsteps, rfl⟩
      exact key_of_spells hsteps
  refine ⟨hread, ?_, fun kept hkey => ?_⟩
  · constructor
    · rintro ⟨e, hkey⟩ ⟨steps, hsteps⟩
      rw [key_of_spells hsteps] at hkey
      cases hkey
    · intro hnone
      cases hkey : key trace with
      | error e => exact ⟨e, rfl⟩
      | ok kept => exact absurd (exists_spells_of_key hkey) hnone
  · obtain ⟨steps, hsteps, rfl⟩ := (hread kept).1 hkey
    have hagain := spells_words_stepsText (legible_of_mem_lasting hsteps)
    refine ⟨?_, lasting steps, hagain, level_lt_of_pairwise (pairwise_lasting steps)⟩
    rw [key_of_spells hagain, lasting_of_pairwise (pairwise_lasting steps)]

/-- The flips are of the levels 2 and 1, however these are written, and the step of a negative level
lasts. -/
theorem key_eq_lasting_of_mixed :
    let trace := "D 1 L 1 D 2 L 2\tBT -2 L 02 D x L -3 BT -1 L +1 D 2 L 5"
    let kept := "D x L -3 BT -1 L 1 D 2 L 5"
    key trace = .ok kept ∧ key kept = .ok kept := by
  intro trace kept
  have hkey : key trace = .ok kept := eq_ok_of_toOption (by decide +kernel)
  obtain ⟨-, -, hagain⟩ := key_eq_lasting trace
  exact ⟨hkey, (hagain kept hkey).1⟩

end TrailSat.Trace
