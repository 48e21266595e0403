import Mathlib.Data.List.TakeWhile
import TrailSat.Text.Blank

/-!
# Joining words and taking them apart

Words joined by single spaces are the words of the text that results (`words_intercalate`), if none
of them is empty or holds a blank.  This is shown with a space in front of every word, which makes
no difference to `words` and all of them alike (`spaced`).
-/

namespace TrailSat.Text

/-- A text that is neither empty nor holds a blank. -/
structure IsWord (t : String) : Prop where
  ne_nil : t.toList ≠ []
  not_blank : ∀ c ∈ t.toList, isBlank c = false

theorem IsWord.of_all {t : String} (hne : t.toList ≠ [])
    (hall : t.toList.all (fun c => !isBlank c) = true) : IsWord t := by
  refine ⟨hne, fun c hc => ?_⟩
  have hpass := List.all_eq_true.1 hall c hc
  simpa using hpass

/-- Each of the texts behind a space. -/
def spaced (texts : List String) : List Char :=
  texts.flatMap fun t => ' ' :: t.toList

theorem spaced_cons (t : String) (rest : List String) :
    spaced (t :: rest) = ' ' :: (t.toList ++ spaced rest) :=
  rfl

theorem spaced_eq_cons (t : String) (rest : List String) :
    spaced (t :: rest) = ' ' :: (" ".intercalate (t :: rest)).toList := by
  rw [String.toList_intercalate]
  induction rest generalizing t with
  | nil => simp [spaced]
  | cons u rest ih =>
      rw [spaced_cons, ih u]
      simp [List.intercalate_cons_cons]

/-! ## Words -/

theorem skipBlanks_space (cs : List Char) : skipBlanks (' ' :: cs) = skipBlanks cs :=
  List.dropWhile_cons_of_pos (by decide)

theorem skipBlanks_append {t : String} (ht : IsWord t) (rest : List Char) :
    skipBlanks (t.toList ++ rest) = t.toList ++ rest := by
  obtain ⟨hne, hword⟩ := ht
  cases hchars : t.toList with
  | nil => exact absurd hchars hne
  | cons c more =>
      have hc : isBlank c = false := hword c (by simp [hchars])
      exact List.dropWhile_cons_of_neg (by simp [hc])

theorem wordsOfChars_of_nil {cs : List Char} (h : skipBlanks cs = []) : wordsOfChars cs = [] := by
  rw [wordsOfChars]
  split
  · rfl
  · next hcons => rw [h] at hcons; cases hcons

theorem wordsOfChars_of_cons {cs rest : List Char} {c : Char} (h : skipBlanks cs = c :: rest) :
    wordsOfChars cs = (c :: leadingWord rest) :: wordsOfChars (afterLeadingWord rest) := by
  rw [wordsOfChars]
  split
  · next hnil => rw [h] at hnil; cases hnil
  · next hcons =>
    obtain ⟨rfl, rfl⟩ := List.cons.inj (h.symm.trans hcons)
    rfl

theorem wordsOfChars_space (cs : List Char) : wordsOfChars (' ' :: cs) = wordsOfChars cs := by
  cases h : skipBlanks cs with
  | nil => rw [wordsOfChars_of_nil h, wordsOfChars_of_nil ((skipBlanks_space cs).trans h)]
  | cons c rest =>
      rw [wordsOfChars_of_cons h, wordsOfChars_of_cons ((skipBlanks_space cs).trans h)]

theorem leadingWord_append {cs : List Char} (hcs : ∀ c ∈ cs, isBlank c = false)
    (rest : List String) : leadingWord (cs ++ spaced rest) = cs := by
  have hpass : ∀ c ∈ cs, (!isBlank c) = true := fun c hc => by rw [hcs c hc, Bool.not_false]
  rw [leadingWord, List.takeWhile_append_of_pos hpass]
  -- the next space, if there is one, is not part of the word
  cases rest with
  | nil => exact List.append_nil cs
  | cons t rest => exact List.append_nil cs

theorem afterLeadingWord_append {cs : List Char} (hcs : ∀ c ∈ cs, isBlank c = false)
    (rest : List String) : afterLeadingWord (cs ++ spaced rest) = spaced rest := by
  have hpass : ∀ c ∈ cs, (!isBlank c) = true := fun c hc => by rw [hcs c hc, Bool.not_false]
  rw [afterLeadingWord, List.dropWhile_append_of_pos hpass]
  cases rest with
  | nil => rfl
  | cons t rest => rfl

/-- A word reaches to the next space or to the end. -/
theorem wordsOfChars_append {t : String} (ht : IsWord t) (rest : List String) :
    wordsOfChars (t.toList ++ spaced rest) = t.toList :: wordsOfChars (spaced rest) := by
  have hskip := skipBlanks_append ht (spaced rest)
  cases hchars : t.toList with
  | nil => exact absurd hchars ht.ne_nil
  | cons c more =>
      have hmore : ∀ d ∈ more, isBlank d = false :=
        fun d hd => ht.not_blank d (by simp [hchars, hd])
      rw [hchars, List.cons_append] at hskip
      rw [List.cons_append, wordsOfChars_of_cons hskip, leadingWord_append hmore,
        afterLeadingWord_append hmore]

theorem wordsOfChars_spaced {texts : List String} (h : ∀ t ∈ texts, IsWord t) :
    wordsOfChars (spaced texts) = texts.map String.toList := by
  induction texts with
  | nil => exact wordsOfChars_of_nil rfl
  | cons t rest ih =>
      obtain ⟨ht, hrest⟩ := List.forall_mem_cons.1 h
      rw [spaced_cons, wordsOfChars_space, wordsOfChars_append ht, ih hrest, List.map_cons]

/-- **The words of a text made of words are these words.** -/
theorem words_intercalate {texts : List String} (h : ∀ t ∈ texts, IsWord t) :
    words (" ".intercalate texts) = texts := by
  have hchars : wordsOfChars (" ".intercalate texts).toList = texts.map String.toList := by
    cases texts with
    | nil => exact wordsOfChars_of_nil rfl
    | cons t rest => rw [← wordsOfChars_space, ← spaced_eq_cons, wordsOfChars_spaced h]
  rw [words, hchars, List.map_map]
  simp

end TrailSat.Text
