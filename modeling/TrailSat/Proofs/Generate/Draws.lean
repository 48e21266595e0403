import Mathlib.Data.List.GetD
import Mathlib.Data.List.Perm.Basic
import TrailSat.Generate.Draws
import TrailSat.Proofs.Generate.Sampler

/-!
# Words obey the laws of generators

A pool from which an item is taken keeps its other items (`takeOut_perm`), so items taken one after
the other are a part of the pool (`perm_of_takeItems`), and a choice without replacement is made of
different numbers (`isChoice_of_takeItems`).
-/

namespace TrailSat.Generate

theorem lt_of_wordBelow {bound n : Nat} (h : Gives (wordBelow bound) n) (hpos : 0 < bound) :
    n < bound := by
  obtain ⟨word, -, h⟩ := h.of_bind
  obtain rfl := h.of_pure
  exact Nat.mod_lt word hpos

theorem length_of_bitsOfWords {size : Nat} {row : List Bool}
    (h : Gives (bitsOfWords size) row) : row.length = size := by
  induction size generalizing row with
  | zero => rw [h.of_pure, List.length_nil]
  | succ size ih =>
      obtain ⟨first, -, h⟩ := h.of_bind
      obtain ⟨rest, hrest, h⟩ := h.of_bind
      rw [h.of_pure, List.length_cons, ih hrest]

/-- Taking an item out of a pool leaves the others in it. -/
theorem takeOut_perm (first : Nat) (rest : List Nat) {index : Nat} (h : index ≤ rest.length) :
    ((takeOut first rest index).1 :: (takeOut first rest index).2).Perm (first :: rest) := by
  cases index with
  | zero => exact .refl _
  | succ index =>
      have hlt : index < rest.length := h
      rw [takeOut, List.getD_eq_getElem rest first hlt]
      -- the first item goes to the place of the one taken
      calc (rest[index] :: rest.set index first).Perm
              (rest[index] :: first :: rest.eraseIdx index) :=
            (List.set_perm_cons_eraseIdx hlt first).cons _
        _ |>.Perm (first :: rest[index] :: rest.eraseIdx index) := .swap ..
        _ |>.Perm (first :: rest) := (List.getElem_cons_eraseIdx_perm hlt).cons _

/-- The items taken and those that are left make up the pool. -/
theorem perm_of_takeItems {size : Nat} {pool items : List Nat}
    (h : Gives (takeItems size pool) items) (hsize : size ≤ pool.length) :
    items.length = size ∧ ∃ left, (items ++ left).Perm pool := by
  induction size generalizing pool items with
  | zero =>
      rw [takeItems.eq_1] at h
      obtain rfl := h.of_pure
      exact ⟨rfl, pool, .refl _⟩
  | succ size ih =>
      cases pool with
      | nil => exact absurd hsize (Nat.not_succ_le_zero size)
      | cons first rest =>
          obtain ⟨index, hindex, h⟩ := h.of_bind
          let taken := takeOut first rest index
          obtain ⟨others, (hothers : Gives (takeItems size taken.2) others), h⟩ := h.of_bind
          obtain rfl := h.of_pure
          have htaken : (taken.1 :: taken.2).Perm (first :: rest) :=
            takeOut_perm first rest (Nat.le_of_lt_succ (lt_of_wordBelow hindex (Nat.succ_pos _)))
          have hfits : size ≤ taken.2.length :=
            Nat.le_of_succ_le_succ (Nat.le_trans hsize (Nat.le_of_eq htaken.length_eq.symm))
          obtain ⟨hcount, left, hleft⟩ := ih hothers hfits
          exact ⟨congrArg (· + 1) hcount, left, (hleft.cons _).trans htaken⟩

theorem isChoice_of_takeItems {population size : Nat} {items : List Nat}
    (h : Gives (takeItems size (List.range population)) items) (hsize : size ≤ population) :
    IsChoice population size items := by
  have hpool : size ≤ (List.range population).length := by rwa [List.length_range]
  obtain ⟨hlength, left, hperm⟩ := perm_of_takeItems h hpool
  refine ⟨congrArg Nat.cast hlength, ?_, fun item hitem => ?_⟩
  · exact List.Nodup.of_append_left (hperm.nodup_iff.2 List.nodup_range)
  · have hlt := List.mem_range.1 (hperm.subset (List.mem_append_left left hitem))
    exact Int.ofNat_lt.2 hlt

instance : LawfulGenerator Draws where
  below_lt := lt_of_wordBelow
  length_row := length_of_bitsOfWords
  isChoice := isChoice_of_takeItems
  rowRoom_le_rowBound := Nat.le_refl _
  rowRoom_le_choiceRoom := Nat.le_refl _

end TrailSat.Generate
