import TrailSat.State.Ledger

/-!
# Boards

A search is played on a *board*: something that can tell whether a clause is falsified or none is
active any more, and on which variables are assigned and taken back.  States are boards, and so are
sheets and ledgers.

An assignment that goes wrong leaves a board behind, which may have been changed already.  One that
succeeds leaves one free variable less, and taking it back leaves one more; that is all a search
needs in order to end.
-/

namespace TrailSat

/-- What a search is played on. -/
class Board (σ : Type) where
  /-- Whether some clause has all its literals marked false. -/
  hasConflict : Formula → σ → Except AssignError Bool
  /-- Whether no clause is active any more. -/
  isSolved : σ → Except AssignError Bool
  /-- The unassigned variable with the lowest number. -/
  firstFree? : σ → Option Nat
  /-- The values of the variables. -/
  entries : σ → List (Option Bool)
  /-- Gives an unassigned variable a value. -/
  assign : Formula → σ → Nat → Bool → Except (Setback σ) σ
  /-- Takes back the last assignment, which must be that of the given variable. -/
  unassign : Formula → σ → Nat → Except (Setback σ) σ
  /-- The number of variables without a value. -/
  numFree : σ → Nat
  /-- Assigning leaves one free variable less. -/
  numFree_assign {F : Formula} {s assigned : σ} {v : Nat} {value : Bool} :
    assign F s v value = .ok assigned → numFree assigned + 1 = numFree s
  /-- Unassigning leaves one free variable more. -/
  numFree_unassign {F : Formula} {s freed : σ} {v : Nat} :
    unassign F s v = .ok freed → numFree freed = numFree s + 1

/-! ## Counting free variables -/

/-- Replacing an item that has a property by one that has not leaves one less. -/
theorem countP_set_neg {Item : Type} {p : Item → Bool} {items : List Item} {i : Nat}
    {old new : Item} (hold : items[i]? = some old) (hp : p old = true) (hnew : p new = false) :
    (items.set i new).countP p + 1 = items.countP p := by
  induction items generalizing i with
  | nil => simp at hold
  | cons first rest ih =>
    cases i with
    | zero =>
      simp only [List.getElem?_cons_zero, Option.some.injEq] at hold
      simp [hold, hp, hnew]
    | succ i =>
      have hrest := ih (i := i) (by simpa using hold)
      simp only [List.set_cons_succ, List.countP_cons]
      omega

/-- Replacing an item that lacks a property by one that has it leaves one more. -/
theorem countP_set_pos {Item : Type} {p : Item → Bool} {items : List Item} {i : Nat}
    {old new : Item} (hold : items[i]? = some old) (hp : p old = false) (hnew : p new = true) :
    (items.set i new).countP p = items.countP p + 1 := by
  induction items generalizing i with
  | nil => simp at hold
  | cons first rest ih =>
    cases i with
    | zero =>
      simp only [List.getElem?_cons_zero, Option.some.injEq] at hold
      simp [hold, hp, hnew]
    | succ i =>
      have hrest := ih (i := i) (by simpa using hold)
      simp only [List.set_cons_succ, List.countP_cons]
      omega

namespace State

theorem getElem?_of_value {F : Formula} {s : State} {v : Nat} {entry : Option Bool}
    (h : s.value F v = .ok entry) : s.values[v - 1]? = some entry := by
  unfold value at h
  split at h
  · split at h
    · next found => rw [found, Except.ok.inj h]
    · cases h
  · cases h

/-- Assigning leaves one free variable less. -/
theorem numFree_assign {F : Formula} {s assigned : State} {v : Nat} {value : Bool}
    (h : s.assign F v value = .ok assigned) : assigned.numFree + 1 = s.numFree := by
  unfold assign at h
  split at h
  · cases h
  · cases h
  · next hvalue =>
    cases h
    exact countP_set_neg (getElem?_of_value hvalue) rfl rfl

/-- Unassigning leaves one free variable more. -/
theorem numFree_unassign {F : Formula} {s freed : State} {v : Nat}
    (h : s.unassign F v = .ok freed) : freed.numFree = s.numFree + 1 := by
  unfold unassign at h
  split at h
  · cases h
  · cases h
  · next hvalue =>
    split at h
    · cases h
    · cases h
    · split at h
      · cases h
        exact countP_set_pos (getElem?_of_value hvalue) rfl rfl
      · cases h

end State

namespace Sheet

theorem isFree_ofEntry (entry : Option Bool) : isFree (ofEntry entry) = entry.isNone := by
  cases entry with
  | none => rfl
  | some value => cases value <;> rfl

theorem getElem?_of_value {F : Formula} {sheet : Sheet} {v : Nat} {cell : Value}
    (h : sheet.value F v = .ok cell) : sheet.values[v - 1]? = some cell := by
  unfold value at h
  split at h
  · split at h
    · next found => rw [found, Except.ok.inj h]
    · cases h
  · cases h

/-- Assigning leaves one free variable less. -/
theorem numFree_assign {F : Formula} {sheet assigned : Sheet} {v : Nat} {value : Bool}
    (h : sheet.assign F v value = .ok assigned) : assigned.numFree + 1 = sheet.numFree := by
  unfold assign at h
  split at h
  · cases h
  · next cell hvalue =>
    split at h
    · next hfree =>
      dsimp only at h
      split at h
      · cases h
      · split at h
        · cases h
          exact countP_set_neg (getElem?_of_value hvalue) hfree (isFree_ofEntry _)
        · cases h
    · cases h

/-- Unassigning leaves one free variable more. -/
theorem numFree_unassign {F : Formula} {sheet freed : Sheet} {v : Nat}
    (h : sheet.unassign F v = .ok freed) : freed.numFree = sheet.numFree + 1 := by
  unfold unassign at h
  split at h
  · cases h
  · next cell hvalue =>
    split at h
    · cases h
    · next hset =>
      split at h
      · cases h
      · cases h
      · cases h
      · split at h
        · dsimp only at h
          split at h
          · cases h
            exact countP_set_pos (getElem?_of_value hvalue) (by simpa using hset)
              (isFree_ofEntry _)
          · cases h
        · cases h

end Sheet

theorem State.orElse_eq_ok {s changed : State} {result : Except AssignError State} :
    s.orElse result = .ok changed ↔ result = .ok changed := by
  cases result with
  | error e => constructor <;> intro h <;> cases h
  | ok t => constructor <;> intro h <;> cases h <;> rfl

/-! ## The boards -/

instance : Board State where
  hasConflict _ s := .ok s.hasConflict
  isSolved s := .ok s.isSolved
  firstFree? := State.firstFree?
  entries s := s.values
  assign F s v value := s.orElse (s.assign F v value)
  unassign F s v := s.orElse (s.unassign F v)
  numFree := State.numFree
  numFree_assign h := State.numFree_assign (State.orElse_eq_ok.1 h)
  numFree_unassign h := State.numFree_unassign (State.orElse_eq_ok.1 h)

instance : Board Sheet where
  hasConflict := Sheet.hasConflict
  isSolved := Sheet.isSolved
  firstFree? := Sheet.firstFree?
  entries sheet := sheet.values.map Sheet.entryOf
  assign := Sheet.assign
  unassign := Sheet.unassign
  numFree := Sheet.numFree
  numFree_assign := Sheet.numFree_assign
  numFree_unassign := Sheet.numFree_unassign

namespace Ledger

theorem eq_of_ofChange {σ : Type} {ledger : σ → Ledger} {result : Except (Setback σ) σ}
    {changed : Ledger} (h : ofChange ledger result = .ok changed) :
    ∃ t, result = .ok t ∧ changed = ledger t := by
  cases result with
  | error setback => cases h
  | ok t => cases h; exact ⟨t, rfl, rfl⟩

/-- The number of variables without a value. -/
def numFree : Ledger → Nat
  | .regular s => s.numFree
  | .irregular sheet => sheet.numFree

/-- Assigning leaves one free variable less. -/
theorem numFree_assign {F : Formula} {ledger assigned : Ledger} {v : Nat} {value : Bool}
    (h : ledger.assign F v value = .ok assigned) : assigned.numFree + 1 = ledger.numFree := by
  cases ledger with
  | regular s =>
    obtain ⟨t, hassigned, rfl⟩ := eq_of_ofChange h
    exact State.numFree_assign (State.orElse_eq_ok.1 hassigned)
  | irregular sheet =>
    obtain ⟨t, hassigned, rfl⟩ := eq_of_ofChange h
    exact Sheet.numFree_assign hassigned

/-- Unassigning leaves one free variable more. -/
theorem numFree_unassign {F : Formula} {ledger freed : Ledger} {v : Nat}
    (h : ledger.unassign F v = .ok freed) : freed.numFree = ledger.numFree + 1 := by
  cases ledger with
  | regular s =>
    obtain ⟨t, hfreed, rfl⟩ := eq_of_ofChange h
    exact State.numFree_unassign (State.orElse_eq_ok.1 hfreed)
  | irregular sheet =>
    obtain ⟨t, hfreed, rfl⟩ := eq_of_ofChange h
    exact Sheet.numFree_unassign hfreed

end Ledger

instance : Board Ledger where
  hasConflict F ledger := match ledger with
    | .regular s => .ok s.hasConflict
    | .irregular sheet => sheet.hasConflict F
  isSolved ledger := match ledger with
    | .regular s => .ok s.isSolved
    | .irregular sheet => sheet.isSolved
  firstFree? ledger := match ledger with
    | .regular s => s.firstFree?
    | .irregular sheet => sheet.firstFree?
  entries ledger := match ledger with
    | .regular s => s.values
    | .irregular sheet => sheet.values.map Sheet.entryOf
  assign := Ledger.assign
  unassign := Ledger.unassign
  numFree := Ledger.numFree
  numFree_assign := Ledger.numFree_assign
  numFree_unassign := Ledger.numFree_unassign

end TrailSat
