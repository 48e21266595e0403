import Mathlib.Order.Bounds.Basic
import TrailSat.Proofs.Files.Source
import TrailSat.Proofs.Files.Tree
import TrailSat.Proofs.Flat.Reading

/-!
# Keeping problems as flat text

Flat text has a single space between literals, between clauses, and in front of every closing zero,
so the text alone does not show where a clause ends; and an empty clause is nothing but a zero.  No
clause has the literal zero, however, and hence the zeros among the tokens are the closing ones.

`reads_stored` says that nothing is lost: not on a line, where the number of variables can be told
from the clauses that are read, and not in a file of lines either.  Problems without clauses have to
be left out there, because they are written as blank lines, and these do not count.
-/

namespace TrailSat.Flat

open Files Formula Number Text

variable {clauses : List (List Int)} {problems : List (List (List Int))}

/-- The clauses have no zeros, and their literals take no more digits than are read. -/
def Legible (clauses : List (List Int)) : Prop :=
  ∀ clause ∈ clauses, ∀ l ∈ clause, l ≠ 0 ∧ IsReadable l

/-- The variables that occur in some clauses. -/
def varsOf (clauses : List (List Int)) : Set Nat :=
  { v | ∃ clause ∈ clauses, ∃ l ∈ clause, l.natAbs = v }

theorem isGreatest_greatestVar (clauses : List (List Int)) :
    IsGreatest (insert 0 (varsOf clauses)) (greatestVar clauses) := by
  constructor
  · rcases greatestVar_eq_zero_or clauses with hzero | hoccurs
    · exact Set.mem_insert_iff.2 (.inl hzero)
    · exact Set.mem_insert_iff.2 (.inr hoccurs)
  · intro v hv
    rcases Set.mem_insert_iff.1 hv with rfl | ⟨clause, hclause, l, hl, rfl⟩
    · exact Nat.zero_le _
    · exact greatestVar_le_iff.1 (Nat.le_refl _) clause hclause l hl

theorem loadProblems_of_writeFile {tree written : Tree} {path : String}
    (hclauses : ∀ clauses ∈ problems, clauses ≠ [])
    (hwrite : tree.writeFile path (ended (problems.map write)).toUTF8 = .ok written) :
    loadProblems written path = .ok (problems.map write) := by
  rw [loadProblems_of_text (Tree.readFile_of_writeFile hwrite), problems_lines_ended hclauses]

/-- **What is kept as flat text is read back.**  A line is read as the clauses that were written,
the greatest of whose variables is the number of variables; and the lines of a file are those that
were written to it, each behind the other and with a line feed at its end. -/
theorem reads_stored :
    (∀ clauses, Legible clauses →
      readClauses (write clauses) = .ok clauses ∧
        IsGreatest (insert 0 (varsOf clauses)) (greatestVar clauses)) ∧
      ∀ (problems : List (List (List Int))) (tree written : Tree) (path : String),
        (∀ clauses ∈ problems, clauses ≠ [] ∧ Legible clauses) →
        tree.writeFile path (ended (problems.map write)).toUTF8 = .ok written →
          loadProblems written path = .ok (problems.map write) ∧
            (problems.map write).map readClauses = problems.map .ok := by
  refine ⟨fun clauses hlegible => ⟨readClauses_write hlegible, isGreatest_greatestVar clauses⟩, ?_⟩
  intro problems tree written path hproblems hwrite
  constructor
  · exact loadProblems_of_writeFile (fun clauses hmem => (hproblems clauses hmem).1) hwrite
  · rw [List.map_map]
    refine List.map_congr_left fun clauses hmem => ?_
    exact readClauses_write (hproblems clauses hmem).2

/-- A file with two problems that have empty clauses; one of them has no others. -/
theorem reads_stored_of_hollow :
    let problems := [[[], [10, -2], [], [-2]], [[]]]
    ∃ written,
      ({} : Tree).writeFile "kept.txt" (ended (problems.map write)).toUTF8 = .ok written ∧
        loadProblems written "kept.txt" = .ok ["0 10 -2 0 0 -2 0", "0"] ∧
        readClauses "0 10 -2 0 0 -2 0" = .ok [[], [10, -2], [], [-2]] ∧
        readClauses "0" = .ok [[]] ∧
        IsGreatest (insert 0 (varsOf [[], [10, -2], [], [-2]])) 10 := by
  intro problems
  have hsmall : ∀ clauses ∈ problems, clauses ≠ [] ∧
      ∀ clause ∈ clauses, ∀ l ∈ clause, l ≠ 0 ∧ l.natAbs < Value.rowBound := by
    decide
  have hproblems : ∀ clauses ∈ problems, clauses ≠ [] ∧ Legible clauses := by
    intro clauses hclauses
    obtain ⟨hne, hliterals⟩ := hsmall clauses hclauses
    refine ⟨hne, fun clause hclause l hl => ?_⟩
    obtain ⟨hnonzero, hlt⟩ := hliterals clause hclause l hl
    exact ⟨hnonzero, isReadable_of_lt hlt⟩
  have hwritten : problems.map write = ["0 10 -2 0 0 -2 0", "0"] := by
    decide +kernel
  have hwrite :
      (({} : Tree).writeFile "kept.txt" (ended (problems.map write)).toUTF8).toOption.isSome := by
    decide +kernel
  obtain ⟨written, hwrite⟩ := Option.isSome_iff_exists.1 hwrite
  have hwrite := eq_ok_of_toOption hwrite
  obtain ⟨hlines, hfiles⟩ := reads_stored
  obtain ⟨hload, hread⟩ := hfiles problems {} written "kept.txt" hproblems hwrite
  have hgreatest := (hlines [[], [10, -2], [], [-2]] (hproblems _ List.mem_cons_self).2).2
  rw [hwritten] at hload hread
  obtain ⟨hfirst, hrest⟩ := List.cons.inj hread
  exact ⟨written, hwrite, hload, hfirst, (List.cons.inj hrest).1, hgreatest⟩

end TrailSat.Flat
