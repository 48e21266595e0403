import TrailSat.Proofs.Dimacs.Grammar
import TrailSat.Proofs.Files.Source

/-!
# Reading damaged files

A reader learns of damage only if it takes in all the lines before it and wants more.  It does so
when nothing is wrong with these lines and no end mark is among them: they are `Unfinished`.  Then
the damage is what is reported (`readDimacs_of_unfinished`); in all other cases the file is read as
if it ended where the damage begins (`readDimacs_of_seen`).
-/

namespace TrailSat

namespace Dimacs

variable {allowEmpty : Bool} {limit : Option Int} {lines : List String} {draft : Draft}

/-- Lines that may be all of a text as well as its beginning: no end mark is among them, and those
that count, if there are any, are laid out as they should be, with literals in range and clauses
that fit. -/
structure Unfinished (limit : Option Int) (lines : List String) : Prop where
  unmarked : ∀ line ∈ lines, Line.ofText line ≠ .endMark
  acceptable : keptLines lines = [] ∨ ∃ numVars numClauses values,
    LaysOut lines numVars numClauses values ∧ (∀ l ∈ values, l.natAbs ≤ numVars) ∧
      Fits limit (clausesOf values)

/-- The answer of a reader tells whether there was an end mark. -/
theorem unmarked_of_readLines {options : Options} {number : Nat} {start : Draft} {ended : Bool}
    (h : readLines options number start lines = .ok (draft, ended)) :
    ended = false ↔ ∀ line ∈ lines, Line.ofText line ≠ .endMark := by
  induction lines generalizing number start with
  | nil =>
      obtain ⟨rfl, rfl⟩ := Prod.mk.inj (Except.ok.inj h)
      simp
  | cons line rest ih =>
      rw [readLines] at h
      rw [List.forall_mem_cons]
      split at h
      · next hmark =>
        obtain ⟨-, rfl⟩ := Prod.mk.inj (Except.ok.inj h)
        simp [hmark]
      · next hmark =>
        split at h
        · cases h
        · rw [ih h]
          simp [hmark]

/-- **A reader takes in all lines and wants more just when they are unfinished.** -/
theorem unfinished_iff : Unfinished limit lines ↔
    ∃ draft, readLines (.ofLimit allowEmpty limit) 0 {} lines = .ok (draft, false) := by
  have hfold := readLines_eq (.ofLimit allowEmpty limit) 0 {} lines
  constructor
  · rintro ⟨hunmarked, hkept⟩
    have hread : ∃ draft,
        (keptLines lines).foldlM (readKept (.ofLimit allowEmpty limit)) {} = .ok draft := by
      rcases hkept with hkept | ⟨numVars, numClauses, values, hlays, hrange, hfits⟩
      · rw [hkept]
        exact ⟨{}, rfl⟩
      · exact ⟨_, (foldlM_keptLines_eq_ok_iff.2 ⟨values, hlays, hrange, hfits, rfl⟩).1⟩
    obtain ⟨draft, hdraft⟩ := hread
    rw [hdraft] at hfold
    cases hlines : readLines (.ofLimit allowEmpty limit) 0 {} lines with
    | error e =>
        rw [hlines] at hfold
        cases hfold
    | ok read =>
        obtain ⟨after, ended⟩ := read
        rw [(unmarked_of_readLines hlines).2 hunmarked]
        exact ⟨after, rfl⟩
  · rintro ⟨draft, hlines⟩
    rw [hlines] at hfold
    refine ⟨(unmarked_of_readLines hlines).1 rfl, ?_⟩
    cases hkept : keptLines lines with
    | nil => exact .inl rfl
    | cons header body =>
        right
        rw [hkept] at hfold
        obtain ⟨⟨numVars, numClauses⟩, hsizes⟩ :=
          Option.ne_none_iff_exists'.1 (sizes_ne_none_of_foldlM hfold.symm)
        rw [← hkept] at hfold
        obtain ⟨values, hlays, hrange, hfits, -⟩ :=
          foldlM_keptLines_eq_ok_iff.1 ⟨hfold.symm, hsizes⟩
        exact ⟨numVars, numClauses, values, hlays, hrange, hfits⟩

end Dimacs

namespace Files

open Dimacs

variable {allowEmpty : Bool} {limit : Option Int} {name : Option String} {source : Source}
  {damage : Damage}

theorem readDimacs_of_unfinished (hdamage : source.damage = some damage)
    (hlines : Unfinished limit source.lines) :
    readDimacs (.ofLimit allowEmpty limit) name source = .error (.damaged damage) := by
  obtain ⟨draft, hread⟩ := unfinished_iff.1 hlines
  rw [readDimacs, hread]
  dsimp only
  rw [hdamage]
  rfl

/-- A reader that is done before the damage, or meets none, reads the lines as a text. -/
theorem readDimacs_of_seen (h : source.damage = none ∨ ¬Unfinished limit source.lines) :
    readDimacs (.ofLimit allowEmpty limit) name source =
      (parse (.ofLimit allowEmpty limit) name source.lines).mapError .notDimacs := by
  unfold readDimacs parse
  cases hread : readLines (.ofLimit allowEmpty limit) 0 {} source.lines with
  | error e => rfl
  | ok read =>
      obtain ⟨draft, ended⟩ := read
      show _ = (finish _ name draft).mapError LoadError.notDimacs
      dsimp only
      cases hdamage : source.damage with
      | none => rfl
      | some damage =>
          -- lines that have been taken in without an end mark would be unfinished
          have hended : ended = true := by
            rw [hdamage] at h
            have hfinished := h.resolve_left (Option.some_ne_none damage)
            cases ended with
            | true => rfl
            | false => exact absurd (unfinished_iff.2 ⟨draft, hread⟩) hfinished
          rw [hended]
          rfl

end Files

end TrailSat
