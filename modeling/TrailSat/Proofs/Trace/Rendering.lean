import TrailSat.Proofs.Number.Decimal
import TrailSat.Proofs.Text.Words
import TrailSat.Trace.Key
import TrailSat.Trace.Literals

/-!
# Reading a rendered trace

Rendered entries can be read in two ways, and both give back what they are there for.  `readSteps`
takes the words of the text four by four, and finds the steps of the entries that have a known tag
(`key_render`).  `literals` looks for a tag followed by a number wherever it may stand, and finds
their literals (`literals_render`): outside the tags a rendered trace has neither a `D` nor a `B`,
so nothing else is taken for one.

Entries are rendered as steps (`render_eq_steps`), so reading is shown for steps, where the literal
may be any word.  For `literals` the text is cut up with a space in front of every token
(`Text.spaced`).
-/

namespace TrailSat.Trace

open Number Text

/-- The text of a row of steps. -/
def stepsText (steps : List Step) : String :=
  joinTokens (steps.flatMap Step.tokens)

/-- A step that can be read back. -/
structure Step.Legible (step : Step) : Prop where
  isTag : isTag step.tag = true
  isWord : IsWord step.literal
  isReadable : IsReadable step.level

/-- The step that an entry is rendered as, if its tag is known. -/
def Entry.step (e : Entry) : Step :=
  ⟨e.tag, toString e.literal, e.level⟩

/-- The step that an event is rendered as. -/
def Event.step (e : Event) : Step :=
  e.entry.step

/-- The entries with a known tag. -/
def tagged (entries : List Entry) : List Entry :=
  entries.filter fun e => isTag e.tag

/-! ## Reading the steps -/

theorem isTag_iff {tag : String} : isTag tag = true ↔ tag = "D" ∨ tag = "BT" := by
  simp [isTag, Kind.tag]

theorem isTag_tag (kind : Kind) : isTag kind.tag = true := by
  cases kind <;> decide

theorem isWord_of_isTag {tag : String} (h : isTag tag = true) : IsWord tag := by
  rcases isTag_iff.1 h with rfl | rfl
  · exact .of_all (by decide) (by decide)
  · exact .of_all (by decide) (by decide)

theorem words_stepsText {steps : List Step} (h : ∀ step ∈ steps, step.Legible) :
    words (stepsText steps) = steps.flatMap Step.tokens := by
  refine words_intercalate fun t ht => ?_
  obtain ⟨step, hstep, hmem⟩ := List.mem_flatMap.1 ht
  obtain ⟨htag, hliteral, -⟩ := h step hstep
  simp only [Step.tokens, stepTokens, List.mem_cons, List.not_mem_nil, or_false] at hmem
  rcases hmem with rfl | rfl | rfl | rfl
  · exact isWord_of_isTag htag
  · exact hliteral
  · exact .of_all (by decide) (by decide)
  · exact isWord_toString step.level

theorem readSteps_tokens {steps : List Step} (h : ∀ step ∈ steps, step.Legible) :
    readSteps (steps.flatMap Step.tokens) = .ok steps := by
  induction steps with
  | nil => rfl
  | cons step rest ih =>
      obtain ⟨⟨htag, -, hlevel⟩, hrest⟩ := List.forall_mem_cons.1 h
      have htokens : (step :: rest).flatMap Step.tokens =
          step.tag :: step.literal :: "L" :: toString step.level :: rest.flatMap Step.tokens := rfl
      rw [htokens, readSteps]
      simp only [htag, readInteger_toString hlevel, ih hrest]
      rfl

/-- The key trace of a row of steps is the text of its key steps. -/
theorem key_stepsText {steps : List Step} (h : ∀ step ∈ steps, step.Legible) :
    key (stepsText steps) = .ok (stepsText (keySteps steps)) := by
  rw [key, words_stepsText h, readSteps_tokens h]
  rfl

/-! ## Entries as steps -/

theorem tokens_eq_nil {e : Entry} (h : isTag e.tag = false) : e.tokens = [] := by
  rw [Entry.tokens, if_neg (by simp [h])]

theorem render_eq_steps (entries : List Entry) :
    render entries = stepsText ((tagged entries).map Entry.step) := by
  have htokens : entries.flatMap Entry.tokens =
      ((tagged entries).map Entry.step).flatMap Step.tokens := by
    induction entries with
    | nil => rfl
    | cons e rest ih =>
        rw [List.flatMap_cons, ih]
        cases htag : isTag e.tag with
        | true =>
            have htagged : tagged (e :: rest) = e :: tagged rest := List.filter_cons_of_pos htag
            rw [htagged, Entry.tokens, if_pos htag]
            rfl
        | false =>
            have htagged : tagged (e :: rest) = tagged rest :=
              List.filter_cons_of_neg (by simp [htag])
            rw [htagged, tokens_eq_nil htag, List.nil_append]
  exact congrArg joinTokens htokens

theorem key_render {entries : List Entry} (hlevels : ∀ e ∈ entries, IsReadable e.level) :
    key (render entries) = .ok (stepsText (keySteps ((tagged entries).map Entry.step))) := by
  rw [render_eq_steps]
  refine key_stepsText fun step hstep => ?_
  obtain ⟨e, he, rfl⟩ := List.mem_map.1 hstep
  obtain ⟨hmem, htag⟩ := List.mem_filter.1 he
  exact ⟨htag, isWord_toString e.literal, hlevels e hmem⟩

/-! ## Finding the literals -/

theorem literalTexts_of_some {cs literal behind : List Char}
    (h : splitLiteral? cs = some (literal, behind)) :
    literalTexts cs = literal :: literalTexts behind := by
  cases cs with
  | nil => cases h
  | cons c rest =>
      rw [literalTexts]
      split
      · next hsome =>
        obtain ⟨rfl, rfl⟩ := Prod.mk.inj (Option.some.inj (h.symm.trans hsome))
        rfl
      · next hnone => rw [h] at hnone; cases hnone

/-- Where no tag begins, a character is passed over. -/
theorem literalTexts_cons {c : Char} (hD : c ≠ 'D') (hB : c ≠ 'B') (rest : List Char) :
    literalTexts (c :: rest) = literalTexts rest := by
  have hnone : splitLiteral? (c :: rest) = none := by
    have htag : afterTag? (c :: rest) = none := by
      unfold afterTag?
      split
      · next heq => exact absurd (List.cons.inj heq).1 hD
      · next heq => exact absurd (List.cons.inj heq).1 hB
      · rfl
    rw [splitLiteral?, htag]
    rfl
  rw [literalTexts]
  split
  · next hsome => rw [hnone] at hsome; cases hsome
  · rfl

theorem literalTexts_append {cs : List Char} (hcs : ∀ c ∈ cs, c ≠ 'D' ∧ c ≠ 'B')
    (rest : List Char) : literalTexts (cs ++ rest) = literalTexts rest := by
  induction cs with
  | nil => rfl
  | cons c more ih =>
      obtain ⟨⟨hD, hB⟩, hmore⟩ := List.forall_mem_cons.1 hcs
      rw [List.cons_append, literalTexts_cons hD hB, ih hmore]

theorem splitMinus_of_digits {ds : List Char} (hdigits : ∀ c ∈ ds, c.isDigit = true)
    (hne : ds ≠ []) (rest : List Char) : splitMinus (ds ++ rest) = ([], ds ++ rest) := by
  cases ds with
  | nil => exact absurd rfl hne
  | cons c more =>
      have hc : c ≠ '-' := ne_of_isDigit (hdigits c List.mem_cons_self) rfl
      unfold splitMinus
      split
      · next heq => exact absurd (List.cons.inj heq).1 hc
      · rfl

theorem splitMinus_toString (n : Int) :
    ∃ sign digits, (toString n).toList = sign ++ digits ∧ digits ≠ [] ∧
      (∀ c ∈ digits, c.isDigit = true) ∧
      ∀ rest, splitMinus ((toString n).toList ++ rest) = (sign, digits ++ rest) := by
  have hne : Nat.toDigits 10 n.natAbs ≠ [] := Nat.toDigits_ne_nil
  have hdigits : ∀ c ∈ Nat.toDigits 10 n.natAbs, c.isDigit = true :=
    fun c => isDigit_of_mem_toDigits
  rw [toList_toString]
  by_cases hn : n < 0
  · rw [if_pos hn]
    exact ⟨['-'], _, rfl, hne, hdigits, fun rest => rfl⟩
  · rw [if_neg hn]
    exact ⟨[], _, rfl, hne, hdigits, splitMinus_of_digits hdigits hne⟩

/-- Behind a tag and a space a printed integer is found. -/
theorem splitLiteral?_toString {tag : String} (htag : isTag tag = true) (n : Int)
    (rest : List Char) :
    splitLiteral? (tag.toList ++ ' ' :: ((toString n).toList ++ ' ' :: rest)) =
      some ((toString n).toList, ' ' :: rest) := by
  obtain ⟨sign, digits, hchars, hne, hdigits, hsplit⟩ := splitMinus_toString n
  have hafter (more : List Char) : afterTag? (tag.toList ++ more) = some more := by
    rcases isTag_iff.1 htag with rfl | rfl
    · rfl
    · rfl
  have hskip : skipBlanks (' ' :: ((toString n).toList ++ ' ' :: rest)) =
      (toString n).toList ++ ' ' :: rest := by
    rw [skipBlanks_space, skipBlanks_append (isWord_toString n)]
  have hdigit : ∀ c ∈ digits, isDigit c = true := fun c hc => isDigit_of_isDigit (hdigits c hc)
  have htake : (digits ++ ' ' :: rest).takeWhile isDigit = digits := by
    rw [List.takeWhile_append_of_pos hdigit]
    exact List.append_nil digits
  have hdrop : (digits ++ ' ' :: rest).dropWhile isDigit = ' ' :: rest :=
    List.dropWhile_append_of_pos hdigit
  rw [splitLiteral?, hafter]
  simp only [Option.bind_eq_bind, Option.bind_some, hskip, hsplit, htake, hdrop, ← hchars]
  exact if_pos ⟨rfl, hne⟩

theorem literalTexts_level (n : Int) (rest : List Char) :
    literalTexts (' ' :: 'L' :: ' ' :: ((toString n).toList ++ rest)) = literalTexts rest := by
  -- a level has digits and perhaps a sign, and no tag begins with these
  have hpass : ∀ c ∈ ' ' :: 'L' :: ' ' :: (toString n).toList, c ≠ 'D' ∧ c ≠ 'B' := by
    intro c hc
    simp only [List.mem_cons] at hc
    rcases hc with rfl | rfl | rfl | hc
    · decide
    · decide
    · decide
    · rcases isDigit_or_eq_minus hc with hdigit | rfl
      · exact ⟨ne_of_isDigit hdigit rfl, ne_of_isDigit hdigit rfl⟩
      · decide
  exact literalTexts_append hpass rest

theorem literalTexts_tokens {entries : List Entry} (htags : ∀ e ∈ entries, isTag e.tag = true) :
    literalTexts (spaced ((entries.map Entry.step).flatMap Step.tokens)) =
      entries.map fun e => (toString e.literal).toList := by
  induction entries with
  | nil =>
      rw [List.map_nil, List.flatMap_nil, spaced, List.flatMap_nil, literalTexts]
      rfl
  | cons e rest ih =>
      obtain ⟨htag, hrest⟩ := List.forall_mem_cons.1 htags
      have htokens : spaced (((e :: rest).map Entry.step).flatMap Step.tokens) =
          ' ' :: (e.tag.toList ++ ' ' :: ((toString e.literal).toList ++
            ' ' :: 'L' :: ' ' :: ((toString e.level).toList ++
              spaced ((rest.map Entry.step).flatMap Step.tokens)))) := rfl
      rw [htokens, literalTexts_cons (by decide) (by decide),
        literalTexts_of_some (splitLiteral?_toString htag e.literal _), literalTexts_level,
        ih hrest, List.map_cons]

theorem mapM_readInteger {entries : List Entry} (h : ∀ e ∈ entries, IsReadable e.literal) :
    (entries.map fun e => (toString e.literal).toList).mapM
        (fun cs => readInteger (String.ofList cs)) = .ok (entries.map Entry.literal) := by
  induction entries with
  | nil => rfl
  | cons e rest ih =>
      obtain ⟨he, hrest⟩ := List.forall_mem_cons.1 h
      rw [List.map_cons, List.mapM_cons, ih hrest, String.ofList_toList, readInteger_toString he]
      rfl

/-- **The literals of a rendered trace are those of the entries with a known tag.** -/
theorem literals_render {entries : List Entry} (hliterals : ∀ e ∈ entries, IsReadable e.literal) :
    literals (render entries) = .ok ((tagged entries).map Entry.literal) := by
  have htags : ∀ e ∈ tagged entries, isTag e.tag = true := fun e he => (List.mem_filter.1 he).2
  have htexts : literalTexts (render entries).toList =
      (tagged entries).map fun e => (toString e.literal).toList := by
    rw [← literalTexts_tokens htags, render_eq_steps, stepsText, joinTokens]
    cases ((tagged entries).map Entry.step).flatMap Step.tokens with
    | nil => rfl
    | cons t rest => rw [spaced_eq_cons, literalTexts_cons (by decide) (by decide)]
  rw [literals, htexts]
  exact mapM_readInteger fun e he => hliterals e (List.mem_of_mem_filter he)

/-! ## Events -/

theorem tagged_entries (events : List Event) :
    tagged (events.map Event.entry) = events.map Event.entry := by
  refine List.filter_eq_self.2 fun entry hentry => ?_
  obtain ⟨e, -, rfl⟩ := List.mem_map.1 hentry
  exact isTag_tag e.kind

/-- Events and the steps that they are rendered as have the same text. -/
theorem text_eq_steps (events : List Event) : text events = stepsText (events.map Event.step) := by
  rw [text, render_eq_steps, tagged_entries, List.map_map]
  rfl

theorem key_text {events : List Event} (hlevels : ∀ e ∈ events, IsReadable e.level) :
    key (text events) = .ok (stepsText (keySteps (events.map Event.step))) := by
  rw [text, key_render (List.forall_mem_map.2 hlevels), tagged_entries, List.map_map]
  rfl

theorem literals_text {events : List Event} (hliterals : ∀ e ∈ events, IsReadable e.literal) :
    literals (text events) = .ok (events.map Event.literal) := by
  rw [text, literals_render (List.forall_mem_map.2 hliterals), tagged_entries, List.map_map]
  rfl

end TrailSat.Trace
