import TrailSat.Files.Source
import TrailSat.Proofs.Text.Decoding

/-!
# Reading text from files

The lines of a plain file are those of its text, if its bytes are a text in UTF-8
(`ofBytes_toUTF8`), and otherwise there is damage (`damage_ofBytes_eq_none_iff`).
-/

namespace TrailSat.Files

open Text

variable {tree : Tree} {path : String} {bytes : ByteArray}

theorem eq_toUTF8_iff {s : String} : bytes = s.toUTF8 ↔ bytes.toList = bytesOf s.toList := by
  rw [← toList_toUTF8]
  constructor
  · rintro rfl
    rfl
  · intro h
    rw [toList_eq_data, toList_eq_data] at h
    exact ByteArray.ext (Array.toList_inj.1 h)

theorem Source.ofBytes_toUTF8 (s : String) :
    Source.ofBytes s.toUTF8 = ⟨Text.lines s.toList, none⟩ := by
  have hread : readLines (chunks s.toUTF8.toList) true = ⟨Text.lines s.toList, true⟩ := by
    apply readLines_of_flatten
    rw [flatten_chunks, toList_toUTF8]
  unfold Source.ofBytes
  rw [hread]
  rfl

/-- **All of a plain file can be read just when its bytes are a text in UTF-8.** -/
theorem Source.damage_ofBytes_eq_none_iff :
    (Source.ofBytes bytes).damage = none ↔ ∃ s : String, bytes = s.toUTF8 := by
  have hintact : (readLines (chunks bytes.toList) true).intact = true ↔
      ∃ cs, bytes.toList = bytesOf cs := by
    rw [intact_iff, flatten_chunks]
  constructor
  · intro h
    obtain ⟨cs, hcs⟩ := hintact.1 (by simpa [Source.ofBytes] using h)
    exact ⟨String.ofList cs, eq_toUTF8_iff.2 (by rw [hcs, String.toList_ofList])⟩
  · rintro ⟨s, rfl⟩
    rw [Source.ofBytes_toUTF8]

/-- What can go wrong with the bytes of a plain file. -/
theorem Source.eq_notText_of_damage {damage : Damage}
    (h : (Source.ofBytes bytes).damage = some damage) : damage = .notText := by
  unfold Source.ofBytes at h
  dsimp only at h
  split at h
  · cases h
  · exact (Option.some.inj h).symm

/-- A file can be opened when it can be read, and its name tells how. -/
theorem openDimacs_eq_ok_iff {source : Source} :
    openDimacs tree path = .ok source ↔ ∃ bytes, tree.readFile path = .ok bytes ∧
      source = if endsWith path ".gz" then .ofCompressed bytes else .ofBytes bytes := by
  rw [openDimacs]
  cases tree.readFile path with
  | error e => simp [Except.map]
  | ok bytes => cases endsWith path ".gz" <;> simp [Except.map, eq_comm]

theorem openDimacs_eq_error_iff {e : FileError} :
    openDimacs tree path = .error e ↔ tree.readFile path = .error e := by
  rw [openDimacs]
  cases tree.readFile path <;> simp [Except.map]

theorem loadProblems_of_text {s : String} (h : tree.readFile path = .ok s.toUTF8) :
    loadProblems tree path = .ok (Flat.problems (Text.lines s.toList)) := by
  unfold loadProblems
  rw [h]
  dsimp only
  rw [Source.ofBytes_toUTF8]

end TrailSat.Files
