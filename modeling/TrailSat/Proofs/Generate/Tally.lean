import Mathlib.Data.List.Basic
import TrailSat.Generate.Coverage

/-!
# The table of counts stays right

Covering never counts the variables again: the table that is filled at the beginning is changed by
hand along with the clauses.  It is `UpToDate` as long as its entries are the `occurrences` in the
clauses as they are now, and the variables without an entry are those that do not occur.

It is so at the beginning (`upToDate_ofClauses`).  Putting a literal of a new variable in a spare
place keeps it so (`Tallied.UpToDate.patch`): the donor gives up one of at least two occurrences, so
it keeps its entry, and the new variable, which had none, gets the count one.  Therefore what is
looked up in the table may be read off the clauses instead (`contains_iff`, `getD_eq`,
`sparePlaces_eq`), and everything that is shown about covering is shown in terms of occurrences.
-/

namespace TrailSat.Generate

variable {α : Type} {state : Tallied} {clauses : List (List Int)} {clause : List Int}
  {place : Nat × Nat} {old : Int} {v : Nat}

/-! ## Occurrences -/

/-- How often a variable occurs in a list of clauses. -/
def occurrences (clauses : List (List Int)) (v : Nat) : Nat :=
  clauses.flatten.countP fun l => l.natAbs == v

theorem occurrences_ne_zero_iff :
    occurrences clauses v ≠ 0 ↔ ∃ clause ∈ clauses, ∃ l ∈ clause, l.natAbs = v := by
  rw [occurrences, ← Nat.pos_iff_ne_zero, List.countP_pos_iff]
  constructor
  · rintro ⟨l, hl, hvar⟩
    obtain ⟨clause, hclause, hl⟩ := List.mem_flatten.1 hl
    exact ⟨clause, hclause, l, hl, beq_iff_eq.1 hvar⟩
  · rintro ⟨clause, hclause, l, hl, hvar⟩
    exact ⟨l, List.mem_flatten.2 ⟨clause, hclause, hl⟩, beq_iff_eq.2 hvar⟩

theorem occurrences_eq_zero_iff :
    occurrences clauses v = 0 ↔ ∀ clause ∈ clauses, ∀ l ∈ clause, l.natAbs ≠ v := by
  rw [← not_iff_not, ← ne_eq, occurrences_ne_zero_iff]
  simp

theorem occurrences_middle (before behind : List (List Int)) (front back : List Int) (l : Int)
    (v : Nat) : occurrences (before ++ (front ++ l :: back) :: behind) v =
      occurrences (before ++ (front ++ back) :: behind) v + if l.natAbs = v then 1 else 0 := by
  simp only [occurrences, List.flatten_append, List.flatten_cons, List.countP_append,
    List.countP_cons, beq_iff_eq]
  omega

/-! ## Replacing a literal -/

/-- An item in its place, and the place with another item in it. -/
theorem exists_middle_of_getElem? {items : List α} {k : Nat} {old : α} (h : items[k]? = some old)
    (new : α) :
    ∃ front back, items = front ++ old :: back ∧ items.set k new = front ++ new :: back := by
  obtain ⟨hk, rfl⟩ := List.getElem?_eq_some_iff.1 h
  obtain ⟨front, back, hitems, -, hset⟩ := List.exists_of_set hk
  exact ⟨front, back, hitems, hset⟩

/-- The literal in its place, and the place with another literal in it. -/
theorem exists_middle_of_place (hclause : clauses[place.1]? = some clause)
    (hold : clause[place.2]? = some old) (new : Int) :
    ∃ before behind front back, clauses = before ++ (front ++ old :: back) :: behind ∧
      replaceAt clauses place new = before ++ (front ++ new :: back) :: behind := by
  obtain ⟨front, back, hfront, hset⟩ := exists_middle_of_getElem? hold new
  obtain ⟨before, behind, hbefore, hmodified⟩ :=
    exists_middle_of_getElem? hclause (clause.set place.2 new)
  refine ⟨before, behind, front, back, hfront ▸ hbefore, ?_⟩
  rw [replaceAt, List.modify_eq_set_getElem?, hclause, ← hset, ← hmodified]
  rfl

/-- Replacing a literal takes one occurrence from its variable and gives one to the new one. -/
theorem occurrences_replaceAt (hclause : clauses[place.1]? = some clause)
    (hold : clause[place.2]? = some old) (new : Int) (w : Nat) :
    occurrences (replaceAt clauses place new) w + (if old.natAbs = w then 1 else 0) =
      occurrences clauses w + if new.natAbs = w then 1 else 0 := by
  obtain ⟨before, behind, front, back, hbefore, hafter⟩ := exists_middle_of_place hclause hold new
  rw [hafter, hbefore, occurrences_middle, occurrences_middle _ _ _ _ old]
  omega

theorem literalAt_eq (hclause : clauses[place.1]? = some clause)
    (hold : clause[place.2]? = some old) : literalAt clauses place = old := by
  simp only [literalAt, List.getD_eq_getElem?_getD, hclause, Option.getD_some, hold]

theorem natAbs_signed (v : Nat) (positive : Bool) :
    (if positive then (v : Int) else -v).natAbs = v := by
  cases positive <;> simp

/-! ## Up to date -/

/-- The entry of a variable that occurs so often. -/
def entryOf (count : Nat) : Option Nat :=
  if count = 0 then none else some count

theorem getD_entryOf (count : Nat) : (entryOf count).getD 0 = count := by
  unfold entryOf
  split
  · next hzero => exact hzero.symm
  · rfl

/-- The table tells the occurrences in the clauses as they are now. -/
def Tallied.UpToDate (state : Tallied) : Prop :=
  ∀ v, state.counts[v]? = entryOf (occurrences state.clauses v)

/-- Counting a row adds its occurrences of every variable to the counts. -/
theorem getElem?_countVars {counts : Tally} {earlier : Nat → Nat}
    (hcounts : ∀ v, counts[v]? = entryOf (earlier v)) (literals : List Int) (v : Nat) :
    (countVars counts literals)[v]? =
      entryOf (earlier v + literals.countP fun l => l.natAbs == v) := by
  induction literals generalizing counts earlier with
  | nil => exact hcounts v
  | cons l rest ih =>
      have hstep : ∀ w, (counts.insert l.natAbs (counts.getD l.natAbs 0 + 1))[w]? =
          entryOf (earlier w + if l.natAbs = w then 1 else 0) := by
        intro w
        simp only [Std.TreeMap.getElem?_insert, Std.LawfulEqCmp.compare_eq_iff_eq]
        split
        · next hvar =>
          -- no entry stands for the count zero, which is what is looked up then
          rw [← hvar, Std.TreeMap.getD_eq_getD_getElem?, hcounts, getD_entryOf, entryOf,
            if_neg (Nat.succ_ne_zero _)]
        · rw [hcounts, Nat.add_zero]
      rw [countVars, List.foldl_cons, ← countVars, ih hstep, List.countP_cons]
      congr 1
      simp only [beq_iff_eq]
      omega

/-- A table that has just been made is up to date. -/
theorem upToDate_ofClauses (clauses : List (List Int)) : (Tallied.ofClauses clauses).UpToDate := by
  intro v
  have hempty : ∀ w, (∅ : Tally)[w]? = entryOf 0 := fun _ => Std.TreeMap.getElem?_emptyc
  have hcount := getElem?_countVars hempty clauses.flatten v
  rwa [Nat.zero_add] at hcount

namespace Tallied.UpToDate

/-- The variables with an entry are those that occur. -/
theorem contains_iff (h : state.UpToDate) :
    state.counts.contains v = true ↔ occurrences state.clauses v ≠ 0 := by
  rw [Std.TreeMap.contains_eq_isSome_getElem?, h v, entryOf]
  split
  · next hnone => simp [hnone]
  · next hsome => simp [hsome]

theorem getD_eq (h : state.UpToDate) (v : Nat) :
    state.counts.getD v 0 = occurrences state.clauses v := by
  rw [Std.TreeMap.getD_eq_getD_getElem?, h v, getD_entryOf]

/-- The spare places, by occurrences instead of the table. -/
theorem sparePlaces_eq (h : state.UpToDate) :
    state.sparePlaces = state.clauses.zipIdx.flatMap fun (clause, i) =>
      clause.zipIdx.filterMap fun (l, k) =>
        if 1 < occurrences state.clauses l.natAbs then some (i, k) else none := by
  simp only [sparePlaces, h.getD_eq]

/-- A spare place is that of a literal whose variable occurs more than once. -/
theorem exists_of_mem_sparePlaces (h : state.UpToDate) (hplace : place ∈ state.sparePlaces) :
    ∃ clause old, state.clauses[place.1]? = some clause ∧ clause[place.2]? = some old ∧
      1 < occurrences state.clauses old.natAbs := by
  rw [h.sparePlaces_eq] at hplace
  obtain ⟨⟨clause, i⟩, hclause, hplace⟩ := List.mem_flatMap.1 hplace
  obtain ⟨⟨old, k⟩, hold, hplace⟩ := List.mem_filterMap.1 hplace
  dsimp only at hplace
  split at hplace
  · next hspare =>
    obtain rfl := Option.some.inj hplace
    exact ⟨clause, old, List.mem_zipIdx_iff_getElem?.1 hclause, List.mem_zipIdx_iff_getElem?.1 hold,
      hspare⟩
  · cases hplace

/-- **A patch keeps the table up to date.** -/
theorem patch (h : state.UpToDate) (hplace : place ∈ state.sparePlaces)
    (habsent : occurrences state.clauses v = 0) (positive : Bool) :
    (state.patch place v positive).UpToDate := by
  obtain ⟨clause, old, hclause, hold, hspare⟩ := h.exists_of_mem_sparePlaces hplace
  intro w
  have hmoved := occurrences_replaceAt hclause hold (if positive then (v : Int) else -v) w
  rw [natAbs_signed] at hmoved
  have hdonor : old.natAbs ≠ v := by
    rintro rfl
    omega
  simp only [Tallied.patch, literalAt_eq hclause hold, h.getD_eq, Std.TreeMap.getElem?_insert,
    Std.LawfulEqCmp.compare_eq_iff_eq]
  by_cases hnew : v = w
  · -- the new variable has had no occurrence
    subst hnew
    rw [if_pos rfl, if_neg hdonor, habsent, Nat.add_zero] at hmoved
    rw [if_pos rfl, hmoved]
    rfl
  · rw [if_neg hnew] at hmoved ⊢
    by_cases hgave : old.natAbs = w
    · -- the donor has at least one occurrence left, so it keeps its entry
      subst hgave
      rw [if_pos rfl] at hmoved ⊢
      rw [entryOf, if_neg (by omega)]
      exact congrArg some (by omega)
    · rw [if_neg hgave] at hmoved ⊢
      rw [h w]
      exact congrArg entryOf hmoved.symm

end Tallied.UpToDate

end TrailSat.Generate
