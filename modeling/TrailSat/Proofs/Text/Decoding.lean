import Mathlib.Data.List.Basic
import TrailSat.Text.Lines

/-!
# Decoding undoes encoding

A decoder that stands between two characters decodes the bytes of any character as this character
(`take?_append`), and whatever it accepts from there consists of the bytes of whole characters
(`exists_char_of_take?`).  The second half is where the ranges of the bytes matter: they leave out
the numbers that have a shorter encoding, those beyond Unicode, and, by a range that is empty, the
surrogates.

It makes no difference how the bytes are cut into chunks (`takeChunks_eq_iff`).  So all of a final
text is read just when its bytes are those of characters, and then its lines are those of these
characters (`readLines_of_bytesOf`, `intact_iff`).
-/

namespace TrailSat.Text

/-- The bytes of some characters. -/
def bytesOf (cs : List Char) : List UInt8 :=
  cs.flatMap String.utf8EncodeChar

theorem bytesOf_cons (c : Char) (cs : List Char) :
    bytesOf (c :: cs) = String.utf8EncodeChar c ++ bytesOf cs :=
  rfl

theorem toList_eq_data (bytes : ByteArray) : bytes.toList = bytes.data.toList := by
  have hloop (i : Nat) (read : List UInt8) : ByteArray.toList.loop bytes i read =
      read.reverse ++ bytes.data.toList.drop i := by
    fun_induction ByteArray.toList.loop bytes i read with
    | case1 i read hi ih =>
        have hlt : i < bytes.data.toList.length := by simpa using hi
        have hget : bytes.get! i = bytes.data.toList[i] := by
          rw [ByteArray.get!, getElem!_pos bytes.data i hi, Array.getElem_toList]
        rw [ih, List.drop_eq_getElem_cons hlt, hget]
        simp
    | case2 i read hi =>
        rw [List.drop_eq_nil_of_le (by simpa using Nat.le_of_not_lt hi), List.append_nil]
  rw [ByteArray.toList, hloop]
  rfl

/-- The bytes of a text are those of its characters. -/
theorem toList_toUTF8 (s : String) : s.toUTF8.toList = bytesOf s.toList := by
  rw [toList_eq_data, String.toUTF8_eq_toByteArray, ← String.utf8Encode_toList]
  exact List.toList_data_toByteArray

namespace Decoder

variable {cs : List Char} {d final : Decoder} {bytes rest : List UInt8} {byte : UInt8}
  {missing low high value n : Nat}

/-- A decoder that stands between two characters. -/
def between (cs : List Char) : Decoder where
  chars := cs

/-- A number that begins a character of several bytes, with what is to come then. -/
inductive Lead : (first missing low high value : Nat) → Prop
  | two {first : Nat} (h : 0xC2 ≤ first ∧ first ≤ 0xDF) : Lead first 1 0x80 0xBF (first - 0xC0)
  | three {first : Nat} (h : 0xE1 ≤ first ∧ first ≤ 0xEF) : Lead first 2 0x80 0xBF (first - 0xE0)
  | lowThree : Lead 0xE0 2 0xA0 0xBF 0
  | four {first : Nat} (h : 0xF1 ≤ first ∧ first ≤ 0xF3) : Lead first 3 0x80 0xBF (first - 0xF0)
  | lowFour : Lead 0xF0 3 0x90 0xBF 0
  | highFour : Lead 0xF4 3 0x80 0x8F 4

/-! ## One byte -/

theorem next?_between_of_lt (h : n < 0x80) :
    (between cs).next? n = some (between (Char.ofNat n :: cs)) :=
  if_pos h

theorem next?_between_of_lead (h : Lead n missing low high value) :
    (between cs).next? n = some ((between cs).await missing low high value) := by
  cases h with
  | two h | three h | four h =>
      simp only [next?, between]
      repeat' first | rw [if_pos (by omega)] | rw [if_neg (by omega)]
  | lowThree | lowFour | highFour => rfl

theorem cases_of_next?_between (h : (between cs).next? n = some d) :
    (n < 0x80 ∧ d = between (Char.ofNat n :: cs)) ∨
      ∃ missing low high value, Lead n missing low high value ∧
        d = (between cs).await missing low high value := by
  simp only [next?, between] at h
  split_ifs at h with hone htwo hlowThree hthree hlowFour hhighFour hfour
  · exact .inl ⟨hone, (Option.some.inj h).symm⟩
  · exact .inr ⟨_, _, _, _, .two htwo, (Option.some.inj h).symm⟩
  · exact .inr ⟨_, _, _, _, hlowThree ▸ .lowThree, (Option.some.inj h).symm⟩
  · exact .inr ⟨_, _, _, _, .three hthree, (Option.some.inj h).symm⟩
  · exact .inr ⟨_, _, _, _, hlowFour ▸ .lowFour, (Option.some.inj h).symm⟩
  · subst hhighFour
    exact .inr ⟨_, _, _, _, .highFour, (Option.some.inj h).symm⟩
  · exact .inr ⟨_, _, _, _, .four hfour, (Option.some.inj h).symm⟩

theorem next?_await_succ :
    ((between cs).await (missing + 1) low high value).next? n =
      if low ≤ n ∧ n ≤ high then
        if missing = 0 then some (between (Char.ofNat (64 * value + (n - 0x80)) :: cs))
        else if beginsSurrogate (64 * value + (n - 0x80)) then
          some ((between cs).await missing 1 0 (64 * value + (n - 0x80)))
        else some ((between cs).await missing 0x80 0xBF (64 * value + (n - 0x80)))
      else none :=
  rfl

/-! ## The bytes of a character -/

/-- The numbers that a character with the given number is encoded as. -/
def units (n : Nat) : List Nat :=
  if n ≤ 0x7F then [n]
  else if n ≤ 0x7FF then [n / 64 + 0xC0, n % 64 + 0x80]
  else if n ≤ 0xFFFF then [n / 4096 + 0xE0, n / 64 % 64 + 0x80, n % 64 + 0x80]
  else [n / 262144 + 0xF0, n / 4096 % 64 + 0x80, n / 64 % 64 + 0x80, n % 64 + 0x80]

theorem map_toNat_encodeChar (c : Char) :
    (String.utf8EncodeChar c).map UInt8.toNat = units c.toNat := by
  have hmax : c.toNat < 0x110000 := by
    rcases c.valid with h | h
    · exact Nat.lt_trans h (by decide)
    · exact h.2
  have hval : c.val.toNat = c.toNat := rfl
  unfold String.utf8EncodeChar units
  rw [hval]
  dsimp only
  split_ifs <;> simp <;> omega

theorem encodeChar_ofNat (hvalid : n.isValidChar) (h : bytes.map UInt8.toNat = units n) :
    String.utf8EncodeChar (Char.ofNat n) = bytes := by
  have hn : (Char.ofNat n).toNat = n := by
    rw [Char.ofNat, dif_pos hvalid]
    rfl
  have hinj : Function.Injective UInt8.toNat := fun _ _ => UInt8.toNat_inj.1
  apply hinj.list_map
  rw [map_toNat_encodeChar, hn, h]

/-! ## From characters to bytes and back -/

theorem take?_cons_eq_bind :
    d.take? (byte :: rest) = (d.next? byte.toNat).bind fun next => next.take? rest := by
  rw [take?]
  cases d.next? byte.toNat <;> rfl

theorem take?_cons {next : Decoder} (h : d.next? byte.toNat = some next) :
    d.take? (byte :: rest) = next.take? rest := by
  rw [take?_cons_eq_bind, h, Option.bind_some]

theorem take?_last (c : Char) (h : low ≤ byte.toNat ∧ byte.toNat ≤ high)
    (hc : 64 * value + (byte.toNat - 0x80) = c.toNat) :
    ((between cs).await 1 low high value).take? (byte :: rest) =
      (between (c :: cs)).take? rest := by
  apply take?_cons
  rw [next?_await_succ, if_pos h, if_pos rfl, hc, Char.ofNat_toNat]

theorem take?_more {next : Nat} (h : low ≤ byte.toNat ∧ byte.toNat ≤ high)
    (hnext : 64 * value + (byte.toNat - 0x80) = next) (hsurrogate : ¬beginsSurrogate next) :
    ((between cs).await (missing + 2) low high value).take? (byte :: rest) =
      ((between cs).await (missing + 1) 0x80 0xBF next).take? rest := by
  apply take?_cons
  rw [next?_await_succ, if_pos h, if_neg (by omega), hnext, if_neg hsurrogate]

theorem beginsSurrogate_iff : beginsSurrogate n = true ↔ 0x360 ≤ n ∧ n < 0x380 := by
  simp [beginsSurrogate]

theorem exists_lead_three (hlow : 0x800 ≤ n) (hhigh : n ≤ 0xFFFF) :
    ∃ low high, Lead (n / 4096 + 0xE0) 2 low high (n / 4096) ∧
      low ≤ n / 64 % 64 + 0x80 ∧ n / 64 % 64 + 0x80 ≤ high := by
  -- a first byte without bits of its own leaves out the shorter encodings
  by_cases hzero : n / 4096 = 0
  · rw [hzero]
    exact ⟨_, _, .lowThree, by omega, by omega⟩
  · have hlead : Lead (n / 4096 + 0xE0) 2 0x80 0xBF _ := .three (by omega)
    rw [Nat.add_sub_cancel] at hlead
    exact ⟨_, _, hlead, by omega, by omega⟩

theorem exists_lead_four (hlow : 0x10000 ≤ n) (hhigh : n ≤ 0x10FFFF) :
    ∃ low high, Lead (n / 262144 + 0xF0) 3 low high (n / 262144) ∧
      low ≤ n / 4096 % 64 + 0x80 ∧ n / 4096 % 64 + 0x80 ≤ high := by
  by_cases hzero : n / 262144 = 0
  · rw [hzero]
    exact ⟨_, _, .lowFour, by omega, by omega⟩
  · by_cases hlast : n / 262144 = 4
    · rw [hlast]
      exact ⟨_, _, .highFour, by omega, by omega⟩
    · have hlead : Lead (n / 262144 + 0xF0) 3 0x80 0xBF _ := .four (by omega)
      rw [Nat.add_sub_cancel] at hlead
      exact ⟨_, _, hlead, by omega, by omega⟩

/-- **The bytes of a character are decoded as this character.** -/
theorem take?_append (c : Char) (rest : List UInt8) :
    (between cs).take? (String.utf8EncodeChar c ++ rest) = (between (c :: cs)).take? rest := by
  have hvalid : c.toNat.isValidChar := c.valid
  have hunits := map_toNat_encodeChar c
  generalize String.utf8EncodeChar c = bytes at hunits
  unfold units at hunits
  -- a character has one to four bytes, by its number
  split_ifs at hunits with hone htwo hthree
  all_goals simp only [List.map_eq_cons_iff, List.map_eq_nil_iff] at hunits
  · obtain ⟨b, _, rfl, hb, rfl⟩ := hunits
    apply take?_cons
    rw [hb, next?_between_of_lt (by omega), Char.ofNat_toNat]
  · obtain ⟨b, _, rfl, hb, b₁, _, rfl, hb₁, rfl⟩ := hunits
    have hlead : Lead b.toNat 1 0x80 0xBF (b.toNat - 0xC0) := .two (by omega)
    simp only [List.cons_append, List.nil_append]
    rw [take?_cons (next?_between_of_lead hlead), take?_last c (by omega) (by omega)]
  · obtain ⟨b, _, rfl, hb, b₁, _, rfl, hb₁, b₂, _, rfl, hb₂, rfl⟩ := hunits
    obtain ⟨low, high, hlead, hrange⟩ := exists_lead_three (n := c.toNat) (by omega) hthree
    rw [← hb] at hlead
    rw [← hb₁] at hrange
    have hsurrogate : ¬beginsSurrogate (c.toNat / 64) = true := by
      rw [beginsSurrogate_iff]
      omega
    simp only [List.cons_append, List.nil_append]
    rw [take?_cons (next?_between_of_lead hlead), take?_more hrange (by omega) hsurrogate,
      take?_last c (by omega) (by omega)]
  · obtain ⟨b, _, rfl, hb, b₁, _, rfl, hb₁, b₂, _, rfl, hb₂, b₃, _, rfl, hb₃, rfl⟩ := hunits
    obtain ⟨low, high, hlead, hrange⟩ := exists_lead_four (n := c.toNat) (by omega) (by omega)
    rw [← hb] at hlead
    rw [← hb₁] at hrange
    have hfirst : ¬beginsSurrogate (c.toNat / 4096) = true := by
      rw [beginsSurrogate_iff]
      omega
    have hsecond : ¬beginsSurrogate (c.toNat / 64) = true := by
      rw [beginsSurrogate_iff]
      omega
    simp only [List.cons_append, List.nil_append]
    rw [take?_cons (next?_between_of_lead hlead), take?_more hrange (by omega) hfirst,
      take?_more (by omega) (by omega) hsecond, take?_last c (by omega) (by omega)]

/-- A decoder for whose next byte no range is left never gets to the end of a character. -/
theorem missing_of_take?_empty
    (h : ((between cs).await (missing + 1) 1 0 value).take? bytes = some final) :
    final.missing ≠ 0 := by
  cases bytes with
  | nil =>
      obtain rfl := Option.some.inj h
      exact Nat.succ_ne_zero missing
  | cons byte rest =>
      rw [take?_cons_eq_bind, next?_await_succ, if_neg (by omega)] at h
      cases h

/-- The last byte of a character. -/
theorem exists_of_take?_last
    (h : ((between cs).await 1 low high value).take? bytes = some final)
    (hfinal : final.missing = 0) :
    ∃ byte rest, bytes = byte :: rest ∧ (low ≤ byte.toNat ∧ byte.toNat ≤ high) ∧
      (between (Char.ofNat (64 * value + (byte.toNat - 0x80)) :: cs)).take? rest =
        some final := by
  cases bytes with
  | nil =>
      obtain rfl := Option.some.inj h
      cases hfinal
  | cons byte rest =>
      rw [take?_cons_eq_bind, next?_await_succ] at h
      by_cases hrange : low ≤ byte.toNat ∧ byte.toNat ≤ high
      · rw [if_pos hrange, if_pos rfl, Option.bind_some] at h
        exact ⟨byte, rest, rfl, hrange, h⟩
      · rw [if_neg hrange] at h
        cases h

/-- A byte of a character before the last one. -/
theorem exists_of_take?_more
    (h : ((between cs).await (missing + 2) low high value).take? bytes = some final)
    (hfinal : final.missing = 0) :
    ∃ byte rest, bytes = byte :: rest ∧ (low ≤ byte.toNat ∧ byte.toNat ≤ high) ∧
      ¬beginsSurrogate (64 * value + (byte.toNat - 0x80)) = true ∧
        ((between cs).await (missing + 1) 0x80 0xBF (64 * value + (byte.toNat - 0x80))).take?
          rest = some final := by
  cases bytes with
  | nil =>
      obtain rfl := Option.some.inj h
      cases hfinal
  | cons byte rest =>
      rw [take?_cons_eq_bind, next?_await_succ] at h
      by_cases hrange : low ≤ byte.toNat ∧ byte.toNat ≤ high
      · rw [if_pos hrange, if_neg (Nat.succ_ne_zero _)] at h
        by_cases hsurrogate : beginsSurrogate (64 * value + (byte.toNat - 0x80)) = true
        · -- no byte may follow where a surrogate begins
          rw [if_pos hsurrogate, Option.bind_some] at h
          exact absurd hfinal (missing_of_take?_empty h)
        · rw [if_neg hsurrogate, Option.bind_some] at h
          exact ⟨byte, rest, rfl, hrange, hsurrogate, h⟩
      · rw [if_neg hrange] at h
        cases h

/-- The bytes that are accepted begin with those of a character. -/
def StartsWithChar (cs : List Char) (bytes : List UInt8) (final : Decoder) : Prop :=
  ∃ c rest, bytes = String.utf8EncodeChar c ++ rest ∧
    (between (c :: cs)).take? rest = some final

theorem startsWithChar_of_units (taken : List UInt8) (hvalid : n.isValidChar)
    (hunits : taken.map UInt8.toNat = units n)
    (h : (between (Char.ofNat n :: cs)).take? rest = some final) :
    StartsWithChar cs (taken ++ rest) final :=
  ⟨Char.ofNat n, rest, by rw [encodeChar_ofNat hvalid hunits], h⟩

theorem startsWithChar_three {first : UInt8}
    (hfirst : first.toNat = value + 0xE0) (hrange : 0x80 ≤ low ∧ high ≤ 0xBF)
    (hlow : 0x20 ≤ 64 * value + (low - 0x80)) (hhigh : value < 0x10)
    (h : ((between cs).await 2 low high value).take? bytes = some final)
    (hfinal : final.missing = 0) : StartsWithChar cs (first :: bytes) final := by
  obtain ⟨b₁, rest₁, rfl, hb₁, hsurrogate, h₁⟩ := exists_of_take?_more h hfinal
  obtain ⟨b₂, rest₂, rfl, hb₂, h₂⟩ := exists_of_take?_last h₁ hfinal
  rw [beginsSurrogate_iff] at hsurrogate
  refine startsWithChar_of_units [first, b₁, b₂] ?_ ?_ h₂
  · unfold Nat.isValidChar
    omega
  · rw [units, if_neg (by omega), if_neg (by omega), if_pos (by omega)]
    simp only [List.map_cons, List.map_nil, List.cons.injEq, and_true]
    omega

theorem startsWithChar_four {first : UInt8}
    (hfirst : first.toNat = value + 0xF0) (hrange : 0x80 ≤ low ∧ high ≤ 0xBF)
    (hlow : 0x10 ≤ 64 * value + (low - 0x80)) (hhigh : 64 * value + (high - 0x80) < 0x110)
    (h : ((between cs).await 3 low high value).take? bytes = some final)
    (hfinal : final.missing = 0) : StartsWithChar cs (first :: bytes) final := by
  obtain ⟨b₁, rest₁, rfl, hb₁, -, h₁⟩ := exists_of_take?_more h hfinal
  obtain ⟨b₂, rest₂, rfl, hb₂, -, h₂⟩ := exists_of_take?_more h₁ hfinal
  obtain ⟨b₃, rest₃, rfl, hb₃, h₃⟩ := exists_of_take?_last h₂ hfinal
  refine startsWithChar_of_units [first, b₁, b₂, b₃] ?_ ?_ h₃
  · unfold Nat.isValidChar
    omega
  · rw [units, if_neg (by omega), if_neg (by omega), if_neg (by omega)]
    simp only [List.map_cons, List.map_nil, List.cons.injEq, and_true]
    omega

theorem startsWithChar_of_lead {first : UInt8}
    (hlead : Lead first.toNat missing low high value)
    (h : ((between cs).await missing low high value).take? bytes = some final)
    (hfinal : final.missing = 0) : StartsWithChar cs (first :: bytes) final := by
  generalize hn : first.toNat = n at hlead
  cases hlead with
  | two hfirst =>
      obtain ⟨b₁, rest, rfl, hb₁, h₁⟩ := exists_of_take?_last h hfinal
      refine startsWithChar_of_units [first, b₁] (.inl (by omega)) ?_ h₁
      rw [units, if_neg (by omega), if_pos (by omega)]
      simp only [List.map_cons, List.map_nil, List.cons.injEq, and_true]
      omega
  | three hfirst =>
      exact startsWithChar_three (by omega) (by decide) (by omega) (by omega) h hfinal
  | lowThree => exact startsWithChar_three hn (by decide) (by decide) (by decide) h hfinal
  | four hfirst => exact startsWithChar_four (by omega) (by decide) (by omega) (by omega) h hfinal
  | lowFour => exact startsWithChar_four hn (by decide) (by decide) (by decide) h hfinal
  | highFour => exact startsWithChar_four hn (by decide) (by decide) (by decide) h hfinal

/-- **What is accepted are the bytes of characters.** -/
theorem exists_of_take? (h : (between cs).take? bytes = some final)
    (hfinal : final.missing = 0) :
    ∃ more, bytes = bytesOf more ∧ final = between (more.reverse ++ cs) := by
  induction hlength : bytes.length using Nat.strongRecOn generalizing bytes cs with
  | ind length ih =>
      cases bytes with
      | nil =>
          obtain rfl := Option.some.inj h
          exact ⟨[], rfl, rfl⟩
      | cons first tail =>
          have hstart : StartsWithChar cs (first :: tail) final := by
            rw [take?_cons_eq_bind, Option.bind_eq_some_iff] at h
            obtain ⟨next, hnext, h⟩ := h
            rcases cases_of_next?_between hnext with ⟨hlt, rfl⟩ | ⟨_, _, _, _, hlead, rfl⟩
            · refine startsWithChar_of_units [first] (.inl (by omega)) ?_ h
              rw [units, if_pos (by omega)]
              rfl
            · exact startsWithChar_of_lead hlead h hfinal
          obtain ⟨c, rest, hbytes, hrest⟩ := hstart
          -- the induction is on the bytes, and a character has at least one
          have hshorter : rest.length < length := by
            have hpos := List.length_pos_iff.2 (String.utf8EncodeChar_ne_nil (c := c))
            rw [← hlength, hbytes, List.length_append]
            omega
          obtain ⟨more, rfl, rfl⟩ := ih rest.length hshorter hrest rfl
          refine ⟨c :: more, hbytes, ?_⟩
          rw [List.reverse_cons, List.append_assoc]
          rfl

/-- The bytes of characters are accepted. -/
theorem take?_bytesOf (more : List Char) :
    (between cs).take? (bytesOf more) = some (between (more.reverse ++ cs)) := by
  induction more generalizing cs with
  | nil => rfl
  | cons c rest ih =>
      rw [bytesOf_cons, take?_append, ih, List.reverse_cons, List.append_assoc]
      rfl

/-! ## Chunks -/

theorem take?_append_bytes (bytes rest : List UInt8) :
    d.take? (bytes ++ rest) = (d.take? bytes).bind fun next => next.take? rest := by
  induction bytes generalizing d with
  | nil => rfl
  | cons byte more ih =>
      rw [List.cons_append, take?_cons_eq_bind, take?_cons_eq_bind, Option.bind_assoc]
      simp only [ih]

/-- Chunks are decoded as the bytes in them. -/
theorem takeChunks_eq_iff {chunks : List (List UInt8)} :
    d.takeChunks chunks = (final, true) ↔ d.take? chunks.flatten = some final := by
  induction chunks generalizing d with
  | nil => simp [takeChunks, take?]
  | cons chunk rest ih =>
      rw [takeChunks, List.flatten_cons, take?_append_bytes]
      cases d.take? chunk with
      | none => simp
      | some next => exact ih

end Decoder

theorem flatten_chunks (bytes : List UInt8) : (chunks bytes).flatten = bytes := by
  induction bytes using chunks.induct with
  | case1 bytes hempty =>
      rw [chunks, dif_pos hempty, List.isEmpty_iff.1 hempty]
      rfl
  | case2 bytes hempty ih =>
      rw [chunks, dif_neg hempty, List.flatten_cons, ih, List.take_append_drop]

/-! ## Reading lines -/

variable {pieces : List (List UInt8)}

/-- **The lines of encoded characters are read.** -/
theorem readLines_of_flatten {cs : List Char} (h : pieces.flatten = bytesOf cs) :
    readLines pieces true = ⟨lines cs, true⟩ := by
  have htake : Decoder.takeChunks {} pieces = (Decoder.between cs.reverse, true) := by
    rw [Decoder.takeChunks_eq_iff, h]
    have hbytes : (Decoder.between []).take? (bytesOf cs) = _ := Decoder.take?_bytesOf cs
    rwa [List.append_nil] at hbytes
  rw [readLines, htake]
  simp [Decoder.between, Decoder.text]

/-- **All of a text is read just when its bytes are those of characters.** -/
theorem intact_iff : (readLines pieces true).intact = true ↔ ∃ cs, pieces.flatten = bytesOf cs := by
  constructor
  · intro h
    rw [readLines] at h
    cases htake : Decoder.takeChunks {} pieces with
    | mk final intact =>
        rw [htake] at h
        simp only [Bool.and_true] at h
        split at h
        · next hwhole =>
          obtain ⟨rfl, hmissing⟩ : intact = true ∧ final.missing = 0 := by simpa using hwhole
          rw [Decoder.takeChunks_eq_iff] at htake
          obtain ⟨cs, hcs, -⟩ := Decoder.exists_of_take? htake hmissing
          exact ⟨cs, hcs⟩
        · simp at h
  · rintro ⟨cs, hcs⟩
    rw [readLines_of_flatten hcs]

end TrailSat.Text
