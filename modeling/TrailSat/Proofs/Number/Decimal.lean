import Mathlib.Data.List.Basic
import Mathlib.Data.List.TakeWhile
import Mathlib.Data.Nat.Digits.Defs
import TrailSat.Formula.Basic
import TrailSat.Number.Integer
import TrailSat.Proofs.Text.Words

/-!
# Reading back what is printed

An integer is printed as its decimal digits in ASCII, behind a minus sign if it is negative.
`readInteger` accepts much more than this, other scripts, other signs, underscores and blanks, but
it reads what has been printed as the integer that was printed (`readInteger_toString`), as long as
this does not take more than `maxDigits` digits (`IsReadable`).  The integers that are read are all
of this size (`isReadable_of_readInteger`), so an integer can be printed and read again.

The digits are those of `Nat.toDigits`.  Of all the characters in question the printed ones are the
easiest to tell apart: an ASCII digit has its own value, and is neither blank nor an underscore nor
a sign.
-/

namespace TrailSat

/-! ## ASCII digits -/

namespace Text

variable {c : Char}

theorem toNat_of_isDigit (h : c.isDigit = true) : 48 ≤ c.toNat ∧ c.toNat ≤ 57 := by
  simpa [Char.isDigit, UInt32.le_iff_toNat_le] using h

theorem digit?_of_isDigit (h : c.isDigit = true) : digit? c = some (c.toNat - 48) := by
  obtain ⟨hlow, hhigh⟩ := toNat_of_isDigit h
  have hfirst : digitZeros.find? (fun first => first ≤ c.toNat && c.toNat ≤ first + 9) =
      some 48 := by
    unfold digitZeros
    rw [List.find?_cons_of_pos]
    simp [hlow, hhigh]
  rw [digit?, hfirst, Option.map_some]

theorem isDigit_of_isDigit (h : c.isDigit = true) : isDigit c = true := by
  rw [isDigit, digit?_of_isDigit h, Option.isSome_some]

theorem isBlank_of_isDigit (h : c.isDigit = true) : isBlank c = false := by
  obtain ⟨hlow, hhigh⟩ := toNat_of_isDigit h
  simp [isBlank]
  omega

theorem ne_of_isDigit {d : Char} (h : c.isDigit = true) (hd : d.isDigit = false) : c ≠ d := by
  rintro rfl
  rw [h] at hd
  cases hd

theorem digit?_le {d : Nat} (h : digit? c = some d) : d ≤ 9 := by
  obtain ⟨first, hfirst, rfl⟩ := Option.map_eq_some_iff.1 h
  have hrange := List.find?_some hfirst
  simp only [Bool.and_eq_true, decide_eq_true_eq] at hrange
  omega

end Text

namespace Number

open Text

/-! ## Printed integers -/

/-- An integer takes no more digits than are read. -/
def IsReadable (n : Int) : Prop :=
  (Nat.toDigits 10 n.natAbs).length ≤ maxDigits

/-- What can be read can be written, and conversely. -/
theorem isWritable_iff {n : Int} : isWritable n = true ↔ IsReadable n := by
  rw [isWritable, decide_eq_true_iff, Nat.pow_eq, IsReadable,
    Nat.length_toDigits_le_iff (by decide) (by decide)]

/-- The size of a row has few digits. -/
theorem isReadable_of_lt {n : Int} (h : n.natAbs < Value.rowBound) : IsReadable n := by
  have hbound : Value.rowBound < 10 ^ 19 := by decide
  have hdigits : (Nat.toDigits 10 n.natAbs).length ≤ 19 :=
    (Nat.length_toDigits_le_iff (by decide) (by decide)).2 (Nat.lt_trans h hbound)
  exact Nat.le_trans hdigits (by decide)

theorem toList_toString (n : Int) :
    (toString n).toList =
      if n < 0 then '-' :: Nat.toDigits 10 n.natAbs else Nat.toDigits 10 n.natAbs := by
  rw [Int.toString_eq_repr, Int.repr_eq_if]
  by_cases hn : 0 ≤ n
  · have habs : n.toNat = n.natAbs := by omega
    rw [if_pos hn, if_neg (by omega), Nat.toList_repr, habs]
  · have habs : (-n).toNat = n.natAbs := by omega
    rw [if_neg hn, if_pos (by omega), String.toList_append, Nat.toList_repr, habs]
    rfl

theorem isDigit_of_mem_toDigits {n : Nat} {c : Char} (h : c ∈ Nat.toDigits 10 n) :
    c.isDigit = true :=
  Nat.isDigit_of_mem_toDigits (by decide) (by decide) h

/-- A printed integer consists of digits, and of a minus sign at most. -/
theorem isDigit_or_eq_minus {n : Int} {c : Char} (h : c ∈ (toString n).toList) :
    c.isDigit = true ∨ c = '-' := by
  rw [toList_toString] at h
  split at h
  · rcases List.mem_cons.1 h with rfl | h
    · exact .inr rfl
    · exact .inl (isDigit_of_mem_toDigits h)
  · exact .inl (isDigit_of_mem_toDigits h)

theorem toList_toString_ne_nil (n : Int) : (toString n).toList ≠ [] := by
  rw [toList_toString]
  split
  · exact List.cons_ne_nil _ _
  · exact Nat.toDigits_ne_nil

theorem isWord_toString (n : Int) : IsWord (toString n) := by
  refine ⟨toList_toString_ne_nil n, fun c hc => ?_⟩
  rcases isDigit_or_eq_minus hc with hdigit | rfl
  · exact isBlank_of_isDigit hdigit
  · decide

/-! ## Reading them -/

variable {ds : List Char}

theorem isGrouped_of_digits (hdigits : ∀ c ∈ ds, c.isDigit = true) (hne : ds ≠ []) :
    isGrouped false ds = true := by
  -- behind a digit nothing more is needed
  have hbehind : ∀ cs : List Char, (∀ c ∈ cs, c.isDigit = true) → isGrouped true cs = true := by
    intro cs hcs
    induction cs with
    | nil => rfl
    | cons c rest ih =>
        obtain ⟨hc, hrest⟩ := List.forall_mem_cons.1 hcs
        rw [isGrouped, if_neg (by simpa using ne_of_isDigit hc rfl), ih hrest]
  cases ds with
  | nil => exact absurd rfl hne
  | cons c rest =>
      obtain ⟨hc, hrest⟩ := List.forall_mem_cons.1 hdigits
      rw [isGrouped, if_neg (by simpa using ne_of_isDigit hc rfl), hbehind rest hrest]

theorem ofDigits_of_digits (hdigits : ∀ c ∈ ds, c.isDigit = true) :
    ofDigits ds = Nat.ofDigitChars 10 ds 0 := by
  have hvalues : ds.filterMap digit? = ds.map fun c => c.toNat - 48 := by
    rw [← List.filterMap_eq_map]
    exact List.filterMap_congr fun c hc => digit?_of_isDigit (hdigits c hc)
  rw [ofDigits, hvalues, List.foldl_map, Nat.ofDigitChars_eq_foldl]
  rfl

theorem magnitude?_of_digits (hdigits : ∀ c ∈ ds, c.isDigit = true) (hne : ds ≠ [])
    (hlength : ds.length ≤ maxDigits) : magnitude? ds = some (.ok (Nat.ofDigitChars 10 ds 0)) := by
  have hrun : ∀ c ∈ ds, (isDigit c || c == '_') = true := by
    intro c hc
    rw [isDigit_of_isDigit (hdigits c hc), Bool.true_or]
  have hkept : ds.filter (· != '_') = ds :=
    List.filter_eq_self.2 fun c hc => by simpa using ne_of_isDigit (hdigits c hc) rfl
  have htake : ds.takeWhile (fun c => isDigit c || c == '_') = ds :=
    List.takeWhile_eq_self_iff.2 hrun
  have hdrop : ds.dropWhile (fun c => isDigit c || c == '_') = [] :=
    List.dropWhile_eq_nil_iff.2 hrun
  have hshort : ¬maxDigits < ds.length := by omega
  simp only [magnitude?, htake, hdrop, hkept, isGrouped_of_digits hdigits hne, Bool.not_true,
    Bool.false_eq_true, if_false, if_neg hshort, List.all_nil, if_true, ofDigits_of_digits hdigits]

theorem splitSign_of_digits (hdigits : ∀ c ∈ ds, c.isDigit = true) :
    splitSign ds = (false, ds) := by
  unfold splitSign
  split
  · exact absurd (hdigits _ List.mem_cons_self) (by decide)
  · exact absurd (hdigits _ List.mem_cons_self) (by decide)
  · rfl

/-- **A printed integer is read back.** -/
theorem readInteger_toString {n : Int} (h : IsReadable n) : readInteger (toString n) = .ok n := by
  have hmargin : (toString n).toList.dropWhile isMargin = (toString n).toList := by
    refine List.dropWhile_eq_self_iff.2 fun hpos => ?_
    rcases isDigit_or_eq_minus (List.getElem_mem hpos) with hdigit | hminus
    · rw [isMargin, isBlank_of_isDigit hdigit, Bool.false_and]
      exact Bool.false_ne_true
    · rw [hminus]
      decide
  have hmagnitude : magnitude? (Nat.toDigits 10 n.natAbs) = some (.ok n.natAbs) := by
    rw [magnitude?_of_digits (fun c => isDigit_of_mem_toDigits) Nat.toDigits_ne_nil h,
      Nat.ofDigitChars_ten_toDigits]
  rw [readInteger, hmargin, toList_toString]
  by_cases hn : n < 0
  · have habs : -(n.natAbs : Int) = n := by omega
    rw [if_pos hn]
    simp only [splitSign, hmagnitude, if_true, habs]
  · have habs : (n.natAbs : Int) = n := by omega
    rw [if_neg hn, splitSign_of_digits fun c => isDigit_of_mem_toDigits]
    simp only [hmagnitude, habs]
    rfl

/-! ## Printing what has been read -/

theorem ofDigits_lt (cs : List Char) : ofDigits cs < 10 ^ cs.length := by
  have hvalue : ofDigits cs = Nat.ofDigits 10 (cs.filterMap digit?).reverse := by
    rw [ofDigits, Nat.ofDigits_eq_foldr, List.foldr_reverse]
    congr 1
    funext value d
    exact Nat.add_comm ..
  have hdigits : ∀ d ∈ (cs.filterMap digit?).reverse, d < 10 := by
    intro d hd
    obtain ⟨c, -, hc⟩ := List.mem_filterMap.1 (List.mem_reverse.1 hd)
    exact Nat.lt_succ_of_le (digit?_le hc)
  have hlength : (cs.filterMap digit?).reverse.length ≤ cs.length := by
    rw [List.length_reverse]
    exact List.length_filterMap_le ..
  calc ofDigits cs < 10 ^ (cs.filterMap digit?).reverse.length := by
        rw [hvalue]
        exact Nat.ofDigits_lt_base_pow_length (by decide) hdigits
    _ ≤ 10 ^ cs.length := Nat.pow_le_pow_right (by decide) hlength

theorem magnitude?_lt {cs : List Char} {n : Nat} (h : magnitude? cs = some (.ok n)) :
    n < 10 ^ maxDigits := by
  unfold magnitude? at h
  dsimp only at h
  split at h
  · cases h
  · split at h
    · cases h
    · next hshort =>
      split at h
      · cases h
        exact Nat.lt_of_lt_of_le (ofDigits_lt _)
          (Nat.pow_le_pow_right (by decide) (Nat.le_of_not_lt hshort))
      · cases h

/-- What has been read can be printed and read again. -/
theorem isReadable_of_readInteger {s : String} {n : Int} (h : readInteger s = .ok n) :
    IsReadable n := by
  rw [IsReadable, Nat.length_toDigits_le_iff (by decide) (by decide)]
  unfold readInteger at h
  dsimp only at h
  split at h
  · cases h
  · cases h
  · next m hmagnitude =>
    obtain rfl := Except.ok.inj h
    have hlt := magnitude?_lt hmagnitude
    split
    · rwa [Int.natAbs_neg]
    · exact hlt

/-! ## What integers begin with -/

/-- A text is not read if it begins with a character that no integer begins with. -/
theorem readInteger_of_head? {s : String} {c : Char} (hhead : s.toList.head? = some c)
    (hmargin : isMargin c = false) (hdigit : isDigit c = false)
    (hsign : c ≠ '-' ∧ c ≠ '+' ∧ c ≠ '_') : readInteger s = .error (.malformed s) := by
  obtain ⟨rest, hrest⟩ := List.head?_eq_some_iff.1 hhead
  have hdrop : s.toList.dropWhile isMargin = c :: rest := by
    rw [hrest]
    exact List.dropWhile_cons_of_neg (by simp [hmargin])
  have hsplit : splitSign (c :: rest) = (false, c :: rest) := by
    unfold splitSign
    split
    · next heq => exact absurd (List.cons.inj heq).1 hsign.1
    · next heq => exact absurd (List.cons.inj heq).1 hsign.2.1
    · rfl
  have hrun : (c :: rest).takeWhile (fun d => isDigit d || d == '_') = [] :=
    List.takeWhile_cons_of_neg (by simp [hdigit, hsign.2.2])
  have hnone : magnitude? (c :: rest) = none := by
    rw [magnitude?, hrun]
    rfl
  unfold readInteger
  rw [hdrop, hsplit]
  dsimp only
  rw [hnone]

end Number

/-- Every number up to the number of variables can be read. -/
theorem Formula.isReadable_of_le (F : Formula) {n : Int} (h : n.natAbs ≤ F.numVars) :
    Number.IsReadable n :=
  Number.isReadable_of_lt (Nat.lt_of_le_of_lt h F.hasRoom)

/-- Every number up to the number of variables can be written. -/
theorem Formula.isWritable_of_le (F : Formula) {n : Int} (h : n.natAbs ≤ F.numVars) :
    Number.isWritable n = true :=
  Number.isWritable_iff.2 (F.isReadable_of_le h)

end TrailSat
