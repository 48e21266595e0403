import TrailSat.Proofs.Text.Words

/-!
# Stripped texts

A stripped text neither begins nor ends with a blank.  So its first word begins where it begins
(`head?_of_words`), and a text that has no blank at either end is not changed (`strip_of_ends`).
Texts made of words are such (`strip_intercalate`), and what a text is cut into are words
(`isWord_of_mem_words`).  Stripping leaves the words of a text as they are (`words_strip`).
-/

namespace TrailSat.Text

/-- A text does not begin with a blank. -/
def StartsFirm (cs : List Char) : Prop :=
  ∀ c, cs.head? = some c → isBlank c = false

theorem skipBlanks_of_startsFirm {cs : List Char} (h : StartsFirm cs) : skipBlanks cs = cs := by
  cases cs with
  | nil => rfl
  | cons c rest => exact List.dropWhile_cons_of_neg (by simp [h c rfl])

theorem startsFirm_skipBlanks (cs : List Char) : StartsFirm (skipBlanks cs) := by
  intro c hc
  have hnot := List.head?_dropWhile_not isBlank cs
  rw [← skipBlanks, hc] at hnot
  exact hnot

theorem StartsFirm.mono {cs ds : List Char} (h : StartsFirm ds) (hbegins : cs <+: ds) :
    StartsFirm cs := by
  obtain ⟨rest, rfl⟩ := hbegins
  intro c hc
  exact h c (by rw [List.head?_append, hc, Option.some_or])

theorem startsFirm_strip (s : String) : StartsFirm (strip s).toList := by
  have hsuffix : skipBlanks (skipBlanks s.toList).reverse <:+ (skipBlanks s.toList).reverse :=
    List.dropWhile_suffix _
  rw [strip, String.toList_ofList, stripChars, skipFinalBlanks]
  refine (startsFirm_skipBlanks s.toList).mono ?_
  rwa [← List.reverse_suffix, List.reverse_reverse]

/-- A stripped text begins as its first word does. -/
theorem head?_of_words {s first : String} {rest : List String}
    (h : words (strip s) = first :: rest) : (strip s).toList.head? = first.toList.head? := by
  have hskip := skipBlanks_of_startsFirm (startsFirm_strip s)
  rw [words] at h
  cases hchars : (strip s).toList with
  | nil =>
      rw [hchars, wordsOfChars_of_nil rfl] at h
      cases h
  | cons c more =>
      rw [hchars] at h hskip
      rw [wordsOfChars_of_cons hskip, List.map_cons] at h
      obtain ⟨rfl, -⟩ := List.cons.inj h
      simp

/-- Stripping keeps a text that has no blank at either end. -/
theorem strip_of_ends {s : String} (hfirst : StartsFirm s.toList)
    (hlast : StartsFirm s.toList.reverse) : strip s = s := by
  rw [strip, stripChars, skipBlanks_of_startsFirm hfirst, skipFinalBlanks,
    skipBlanks_of_startsFirm hlast, List.reverse_reverse, String.ofList_toList]

/-- Stripping keeps what a text begins with, unless that is a blank. -/
theorem head?_strip {s : String} {c : Char} (hc : s.toList.head? = some c)
    (hfirm : isBlank c = false) : (strip s).toList.head? = some c := by
  obtain ⟨rest, hrest⟩ := List.head?_eq_some_iff.1 hc
  have hskip : skipBlanks s.toList = c :: rest := by
    rw [hrest]
    exact List.dropWhile_cons_of_neg (by simp [hfirm])
  have hlast : skipBlanks [c] = [c] := List.dropWhile_cons_of_neg (by simp [hfirm])
  rw [strip, String.toList_ofList, stripChars, hskip, skipFinalBlanks, List.reverse_cons,
    List.head?_reverse, skipBlanks, List.dropWhile_append, ← skipBlanks, ← skipBlanks, hlast]
  split
  · rfl
  · rw [List.getLast?_append]
    rfl

/-! ## Words of stripped texts -/

theorem skipBlanks_skipBlanks (cs : List Char) : skipBlanks (skipBlanks cs) = skipBlanks cs :=
  skipBlanks_of_startsFirm (startsFirm_skipBlanks cs)

theorem wordsOfChars_skipBlanks (cs : List Char) :
    wordsOfChars (skipBlanks cs) = wordsOfChars cs := by
  have htwice := skipBlanks_skipBlanks cs
  cases hskip : skipBlanks cs with
  | nil => rw [wordsOfChars_of_nil hskip, wordsOfChars_of_nil rfl]
  | cons c rest =>
      rw [hskip] at htwice
      rw [wordsOfChars_of_cons hskip, wordsOfChars_of_cons htwice]

/-- Blanks at the end belong to no word. -/
theorem wordsOfChars_append_blanks (cs : List Char) {blanks : List Char}
    (hblanks : ∀ c ∈ blanks, isBlank c = true) :
    wordsOfChars (cs ++ blanks) = wordsOfChars cs := by
  have hnone : skipBlanks blanks = [] := List.dropWhile_eq_nil_iff.2 hblanks
  have hstop : blanks.takeWhile (!isBlank ·) = [] ∧ blanks.dropWhile (!isBlank ·) = blanks := by
    cases blanks with
    | nil => exact ⟨rfl, rfl⟩
    | cons c rest =>
        have hc : isBlank c = true := hblanks c List.mem_cons_self
        exact ⟨List.takeWhile_cons_of_neg (by simp [hc]), List.dropWhile_cons_of_neg (by simp [hc])⟩
  -- as the words are cut off: blanks only, or a first word and the rest
  induction cs using wordsOfChars.induct with
  | case1 cs hskip =>
      have hall : skipBlanks (cs ++ blanks) = [] := by
        rw [skipBlanks, List.dropWhile_append, ← skipBlanks, hskip, List.isEmpty_nil, if_pos rfl]
        exact hnone
      rw [wordsOfChars_of_nil hskip, wordsOfChars_of_nil hall]
  | case2 cs c rest hskip _ ih =>
      have hmore : skipBlanks (cs ++ blanks) = c :: (rest ++ blanks) := by
        rw [skipBlanks, List.dropWhile_append, ← skipBlanks, hskip]
        rfl
      have hleading : leadingWord (rest ++ blanks) = leadingWord rest := by
        rw [leadingWord, leadingWord, List.takeWhile_append, hstop.1, List.append_nil]
        split
        · next hlength => exact ((List.takeWhile_prefix _).eq_of_length hlength).symm
        · rfl
      have hafter : afterLeadingWord (rest ++ blanks) = afterLeadingWord rest ++ blanks := by
        rw [afterLeadingWord, afterLeadingWord, List.dropWhile_append, hstop.2]
        split
        · next hempty => rw [List.isEmpty_iff.1 hempty, List.nil_append]
        · rfl
      rw [wordsOfChars_of_cons hmore, wordsOfChars_of_cons hskip, hleading, hafter, ih]

/-- Stripping does not change the words of a text. -/
theorem words_strip (s : String) : words (strip s) = words s := by
  have hends (cs : List Char) : wordsOfChars (skipFinalBlanks cs) = wordsOfChars cs := by
    have hcut : cs = skipFinalBlanks cs ++ (cs.reverse.takeWhile isBlank).reverse := by
      rw [skipFinalBlanks, skipBlanks, ← List.reverse_append, List.takeWhile_append_dropWhile,
        List.reverse_reverse]
    have hblanks : ∀ c ∈ (cs.reverse.takeWhile isBlank).reverse, isBlank c = true := by
      intro c hc
      exact List.mem_takeWhile_imp (List.mem_reverse.1 hc)
    -- only the side that is not cut yet is to be rewritten
    conv => rhs; rw [hcut]
    rw [wordsOfChars_append_blanks _ hblanks]
  rw [words, words, strip, String.toList_ofList, stripChars, hends, wordsOfChars_skipBlanks]

theorem strip_eq_of_no_words {s : String} (h : words s = []) : (strip s).toList = [] := by
  rw [← words_strip] at h
  have hskip := skipBlanks_of_startsFirm (startsFirm_strip s)
  cases hchars : (strip s).toList with
  | nil => rfl
  | cons c more =>
      rw [hchars] at hskip
      rw [words, hchars, wordsOfChars_of_cons hskip] at h
      cases h

theorem isWord_of_mem_words {s t : String} (h : t ∈ words s) : IsWord t := by
  have hword : ∀ text, ∀ cs ∈ wordsOfChars text, cs ≠ [] ∧ ∀ c ∈ cs, isBlank c = false := by
    intro text
    fun_induction wordsOfChars text with
    | case1 text hskip => exact nofun
    | case2 text c rest hskip hless ih =>
        refine List.forall_mem_cons.2 ⟨⟨List.cons_ne_nil _ _, ?_⟩, ih⟩
        refine List.forall_mem_cons.2 ⟨startsFirm_skipBlanks text c (by rw [hskip]; rfl), ?_⟩
        intro d hd
        simpa using List.mem_takeWhile_imp hd
  obtain ⟨cs, hcs, rfl⟩ := List.mem_map.1 h
  obtain ⟨hne, hfirm⟩ := hword _ cs hcs
  exact ⟨by simpa using hne, by simpa using hfirm⟩

/-! ## Joined words -/

theorem IsWord.startsFirm {t : String} (ht : IsWord t) (rest : List Char) :
    StartsFirm (t.toList ++ rest) := by
  intro c hc
  cases hchars : t.toList with
  | nil => exact absurd hchars ht.ne_nil
  | cons first more =>
      rw [hchars] at hc
      obtain rfl := Option.some.inj hc
      exact ht.not_blank first (by simp [hchars])

theorem spaced_concat (texts : List String) (t : String) :
    spaced (texts ++ [t]) = spaced texts ++ ' ' :: t.toList := by
  simp [spaced]

/-- The end of a text made of words is that of the last one. -/
theorem startsFirm_reverse_spaced {texts : List String} (h : ∀ t ∈ texts, IsWord t) :
    StartsFirm (spaced texts).reverse := by
  rcases List.eq_nil_or_concat texts with rfl | ⟨init, last, rfl⟩
  · exact nofun
  · rw [List.concat_eq_append] at h ⊢
    have hlast : IsWord last := h last (by simp)
    have hreversed : IsWord (String.ofList last.toList.reverse) :=
      ⟨by simpa using hlast.ne_nil, fun c hc => hlast.not_blank c (by simpa using hc)⟩
    have hends := hreversed.startsFirm (' ' :: (spaced init).reverse)
    rw [spaced_concat, List.reverse_append, List.reverse_cons, List.append_assoc]
    rwa [String.toList_ofList] at hends

/-- A text made of words has no blank at either end. -/
theorem strip_intercalate {texts : List String} (h : ∀ t ∈ texts, IsWord t) :
    strip (" ".intercalate texts) = " ".intercalate texts := by
  cases texts with
  | nil => rfl
  | cons t rest =>
      have hspaced := spaced_eq_cons t rest
      have hfirst : (" ".intercalate (t :: rest)).toList = t.toList ++ spaced rest := by
        rw [spaced_cons] at hspaced
        exact (List.cons.inj hspaced).2.symm
      have hlast := startsFirm_reverse_spaced h
      rw [hspaced, List.reverse_cons] at hlast
      refine strip_of_ends ?_ (hlast.mono (List.prefix_append ..))
      rw [hfirst]
      exact (h t List.mem_cons_self).startsFirm _

end TrailSat.Text
