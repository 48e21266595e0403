import TrailSat.Files.Tree
import TrailSat.Proofs.Fallible

/-!
# Reading a file that has been written

A path leads to the same place after a file has been put at the end of it: it goes through folders
only, and no folder can be where the file has been put (`walk_put`).  So what is written can be read
again (`readFile_of_writeFile`).

Whether a file can be written does not depend on what is to be written (`Writable.exists_isTarget`).
-/

namespace TrailSat.Files.Tree

variable {tree written : Tree} {place reached : Place} {path : String} {bytes : ByteArray}

/-! ## Entries after a change -/

theorem entry?_put_self {entry : Entry} (h : place ≠ []) :
    entry? (tree.put place entry) place = some entry := by
  rw [ entry?, List.isEmpty_eq_false_iff.2 h, put, List.lookup_cons_self]
  rfl

theorem entry?_put_of_ne {entry : Entry} {other : Place} (h : other ≠ place) :
    entry? (tree.put place entry) other = tree.entry? other := by
  have hlookup : (tree.entries.filter (·.1 != place)).lookup other = tree.entries.lookup other := by
    induction tree.entries with
    | nil => rfl
    | cons first rest ih =>
        by_cases hfirst : first.1 = place
        · rw [List.filter_cons_of_neg (by simp [hfirst]), ih, List.lookup_cons,
            beq_eq_false_iff_ne.2 (hfirst ▸ h)]
        · rw [List.filter_cons_of_pos (by simp [hfirst]), List.lookup_cons, List.lookup_cons, ih]
  simp only [put, entry?, List.lookup_cons, beq_eq_false_iff_ne.2 h, hlookup]

/-! ## Paths after a change -/

theorem step_put {entry : Entry} {component : String} {next : Place}
    (hplace : tree.entry? place ≠ some .folder) (h : tree.step reached component = .ok next) :
    (tree.put place entry).step reached component = .ok next := by
  have hfolder : tree.entry? reached = some .folder := by
    rw [step] at h
    split at h
    · cases h
    · cases h
    · assumption
  have hne : reached ≠ place := fun heq => hplace (heq ▸ hfolder)
  rw [step, entry?_put_of_ne hne, ← h, step]

theorem foldlM_step_put {entry : Entry} {steps : List String} {start : Place}
    (hplace : tree.entry? place ≠ some .folder)
    (h : steps.foldlM tree.step start = .ok reached) :
    steps.foldlM (tree.put place entry).step start = .ok reached := by
  induction steps generalizing start with
  | nil => exact h
  | cons component rest ih =>
      rw [List.foldlM_cons] at h ⊢
      obtain ⟨next, hnext, hrest⟩ := bind_eq_ok_iff.1 h
      exact bind_eq_ok_iff.2 ⟨next, step_put hplace hnext, ih hrest⟩

/-- A path leads where it led before a file was put in the place of anything but a folder. -/
theorem walk_put {entry : Entry} {steps : List String} (hplace : tree.entry? place ≠ some .folder)
    (h : tree.walk path steps = .ok reached) :
    (tree.put place entry).walk path steps = .ok reached := by
  rw [walk] at h ⊢
  split at h
  · cases h
  · split at h
    · cases h
    · next hempty hlong =>
      rw [if_neg hempty, if_neg hlong]
      exact foldlM_step_put hplace h

/-! ## Writing -/

theorem onPath_eq_ok_iff {Result : Type} {attempt : Except Trouble Result} {result : Result} :
    onPath path attempt = .ok result ↔ hasNull path = false ∧ attempt = .ok result := by
  rw [onPath]
  cases hasNull path with
  | true => exact ⟨nofun, fun h => nomatch h.1⟩
  | false =>
      cases attempt with
      | error trouble => exact ⟨nofun, fun h => nomatch h.2⟩
      | ok found => exact ⟨fun h => ⟨rfl, congrArg Except.ok (Except.ok.inj h)⟩, fun h => h.2 ▸ rfl⟩

theorem onPath_eq_nullCharacter_iff {Result : Type} {attempt : Except Trouble Result} :
    onPath path attempt = .error .nullCharacter ↔ hasNull path = true := by
  rw [onPath]
  cases hasNull path with
  | true => simp
  | false => cases attempt <;> simp [Except.mapError]

/-- A file can be written at the end of a path. -/
def Writable (tree : Tree) (path : String) : Prop :=
  ∃ bytes written, tree.writeFile path bytes = .ok written

/-- The place of a file that can be written, at the end of the path and not that of a folder. -/
structure IsTarget (tree : Tree) (path : String) (place : Place) : Prop where
  noNull : hasNull path = false
  noSlash : endsInSlash path = false
  reach_eq : tree.reach path = .ok place
  notFolder : tree.entry? place ≠ some .folder
  writeFile_eq : ∀ bytes, tree.writeFile path bytes = .ok (tree.put place (.file bytes))

theorem Writable.exists_isTarget (h : tree.Writable path) : ∃ place, tree.IsTarget path place := by
  obtain ⟨bytes, written, h⟩ := h
  obtain ⟨hnull, h⟩ := onPath_eq_ok_iff.1 h
  obtain ⟨above, habove, h⟩ := bind_eq_ok_iff.1 h
  split at h
  · cases h
  · cases h
  · next hfolder =>
    split at h
    · cases h
    · next hslash =>
      obtain ⟨place, hreach, h⟩ := bind_eq_ok_iff.1 h
      have hplace : tree.entry? place ≠ some .folder := by
        intro hplace
        rw [hplace] at h
        cases h
      -- none of the checks looks at what is to be written
      refine ⟨place, hnull, by simpa using hslash, hreach, hplace, fun other => ?_⟩
      refine onPath_eq_ok_iff.2 ⟨hnull, bind_eq_ok_iff.2 ⟨above, habove, ?_⟩⟩
      rw [hfolder]
      dsimp only
      rw [if_neg hslash]
      refine bind_eq_ok_iff.2 ⟨place, hreach, ?_⟩
      split
      · next hfolder => exact absurd hfolder hplace
      · rfl

/-- **What has been written can be read.** -/
theorem IsTarget.readFile_put (h : tree.IsTarget path place) (bytes : ByteArray) :
    (tree.put place (.file bytes)).readFile path = .ok bytes := by
  have hne : place ≠ [] := by
    rintro rfl
    exact h.notFolder rfl
  have hreach : (tree.put place (.file bytes)).reach path = .ok place :=
    walk_put h.notFolder h.reach_eq
  refine onPath_eq_ok_iff.2 ⟨h.noNull, bind_eq_ok_iff.2 ⟨place, hreach, ?_⟩⟩
  rw [entry?_put_self hne]
  dsimp only
  rw [if_neg (by simp [h.noSlash])]
  rfl

theorem readFile_of_writeFile (h : tree.writeFile path bytes = .ok written) :
    written.readFile path = .ok bytes := by
  have hwritable : tree.Writable path := ⟨bytes, written, h⟩
  obtain ⟨place, hplace⟩ := hwritable.exists_isTarget
  rw [hplace.writeFile_eq bytes] at h
  obtain rfl := Except.ok.inj h
  exact hplace.readFile_put bytes

end TrailSat.Files.Tree
