import TrailSat.Proofs.Fallible
import TrailSat.Proofs.State.Cells
import TrailSat.Proofs.State.Reachable

/-!
# What is refused

A request to assign is refused for two reasons, and a request to unassign for three.  `RefusesSet`
and `RefusesUnset` list them, each with its error:

```text
assign     it names no variable of the formula      unassign    it names no variable of the formula
           its variable has a value                             its variable has no value
                                                                another variable was assigned last
```

`guarded_of_reachable` says that in a reachable state these are all the reasons, also when the
request is granted cell by cell on the sheet of the state: nothing is missing half way, so none of
the errors that tell of a missing cell is ever met, and nothing has been written when a request is
refused.  That there is nothing to return to is never the reason, because a frame has been saved for
every variable with a value.

The first reason has two errors.  `noSuchVariable` repeats what was asked for, and if that has too
many digits to be told, the error is `unwritable`, which is no refusal
(`not_isRefusal_of_vastVariable`).  The numbers in the other errors are those of variables, and none
of them is so long.
-/

namespace TrailSat

/-- The errors that refuse a request.  The others tell of something that is missing. -/
def AssignError.IsRefusal : AssignError → Prop
  | noSuchVariable _ _ | alreadyAssigned _ | notAssigned _ | nothingSaved | notLast _ _ => True
  | noEntry | noClause | noCell | indexTooLarge | indexNotInteger | unwritable => False

namespace State

/-- A value names a variable of the formula. -/
def Names (F : Formula) (asked : Value) (v : Nat) : Prop :=
  asked = .int v ∧ 1 ≤ v ∧ v ≤ F.numVars

/-- A value names no variable of the formula, and with this error it is told. -/
inductive NamesNone (F : Formula) (asked : Value) : AssignError → Prop where
  | told (hnone : ∀ v, ¬Names F asked v) (hdigits : asked.isWritable = true) :
      NamesNone F asked (.noSuchVariable asked F.numVars)
  | untold (hnone : ∀ v, ¬Names F asked v) (hdigits : asked.isWritable = false) :
      NamesNone F asked .unwritable

/-- Why a request to assign a variable is refused. -/
inductive RefusesSet (F : Formula) (s : State) (asked : Value) : AssignError → Prop where
  | noVariable {e : AssignError} (hnone : NamesNone F asked e) : RefusesSet F s asked e
  | assigned {v : Nat} {old : Bool} (hnamed : Names F asked v)
      (hvalue : s.value F v = .ok (some old)) : RefusesSet F s asked (.alreadyAssigned v)

/-- Why a request to take back an assignment is refused. -/
inductive RefusesUnset (F : Formula) (s : State) (asked : Value) : AssignError → Prop where
  | noVariable {e : AssignError} (hnone : NamesNone F asked e) : RefusesUnset F s asked e
  | free {v : Nat} (hnamed : Names F asked v) (hvalue : s.value F v = .ok none) :
      RefusesUnset F s asked (.notAssigned v)
  | notLast {v last : Nat} {old : Bool} (hnamed : Names F asked v)
      (hvalue : s.value F v = .ok (some old)) (hlast : s.trail.head? = some last)
      (hne : last ≠ v) : RefusesUnset F s asked (.notLast v (.int last))

/-! ## Requests that name a variable -/

variable {F : Formula} {s : State} {asked : Value} {v : Nat}

theorem readVar_eq_ok_iff : readVar F asked = .ok v ↔ Names F asked v := by
  constructor
  · intro h
    obtain ⟨hlow, hhigh⟩ := inRange_of_readVar h
    refine ⟨?_, hlow, hhigh⟩
    unfold readVar at h
    split at h
    · split at h
      · cases h
        congr 1
        omega
      · cases h
    · cases h
  · rintro ⟨rfl, hlow, hhigh⟩
    exact readVar_int hlow hhigh

theorem readVar_eq_error (hnone : ∀ v, ¬Names F asked v) :
    readVar F asked = .error (AssignError.told (.noSuchVariable asked F.numVars)) := by
  unfold readVar
  split
  · next n =>
    -- an integer in range would name the variable of that number
    have hrange : ¬(1 ≤ n ∧ n ≤ F.numVars) := by
      rintro ⟨hlow, hhigh⟩
      obtain ⟨v, rfl⟩ := Int.eq_ofNat_of_zero_le (Int.le_trans (by decide) hlow)
      exact hnone v ⟨rfl, by omega, by omega⟩
    rw [if_neg hrange]
  · rfl

theorem namesNone_told (hnone : ∀ v, ¬Names F asked v) :
    NamesNone F asked (AssignError.told (.noSuchVariable asked F.numVars)) := by
  rw [AssignError.told, AssignError.isWritable]
  cases hdigits : asked.isWritable with
  | true => exact .told hnone hdigits
  | false => exact .untold hnone hdigits

/-- What names no variable does so with one error. -/
theorem NamesNone.eq_told {e : AssignError} (h : NamesNone F asked e) :
    (∀ v, ¬Names F asked v) ∧ e = AssignError.told (.noSuchVariable asked F.numVars) := by
  cases h with
  | told hnone hdigits | untold hnone hdigits =>
      rw [AssignError.told, AssignError.isWritable, hdigits]
      exact ⟨hnone, rfl⟩

theorem readVar_eq_error_iff {e : AssignError} :
    readVar F asked = .error e ↔ NamesNone F asked e := by
  constructor
  · intro hread
    have hnone : ∀ v, ¬Names F asked v := by
      intro v hnamed
      rw [readVar_eq_ok_iff.2 hnamed] at hread
      cases hread
    obtain rfl := Except.error.inj ((readVar_eq_error hnone).symm.trans hread)
    exact namesNone_told hnone
  · intro h
    obtain ⟨hnone, rfl⟩ := h.eq_told
    exact readVar_eq_error hnone

/-! ## Why a variable cannot be assigned or unassigned -/

theorem assign_eq_error_iff (hs : Reachable F s) (hlow : 1 ≤ v) (hhigh : v ≤ F.numVars)
    {value : Bool} {e : AssignError} :
    s.assign F v value = .error e ↔
      ∃ old, s.value F v = .ok (some old) ∧ e = .alreadyAssigned v := by
  obtain ⟨a, ha, rfl⟩ := reachable_iff_along.1 hs
  rw [assign_along_eq hlow hhigh, value_along hlow hhigh]
  cases a.value? v with
  | none => simp
  | some old => simp [eq_comm]

theorem unassign_eq_error_iff (hs : Reachable F s) (hlow : 1 ≤ v) (hhigh : v ≤ F.numVars)
    {e : AssignError} :
    s.unassign F v = .error e ↔
      (s.value F v = .ok none ∧ e = .notAssigned v) ∨
        ∃ old last, s.value F v = .ok (some old) ∧ s.trail.head? = some last ∧ last ≠ v ∧
          e = .notLast v (.int last) := by
  obtain ⟨a, ha, rfl⟩ := reachable_iff_along.1 hs
  -- the last assignment decides: none at all, this variable's, or another's
  cases a with
  | nil =>
      rw [unassign_along_of_free hlow hhigh rfl, value_along hlow hhigh]
      simp [eq_comm]
  | cons last earlier =>
      obtain ⟨w, value⟩ := last
      obtain ⟨hw, hfree, -⟩ := ha
      have htrail : (along F ((w, value) :: earlier)).trail.head? = some w := rfl
      rw [value_along hlow hhigh, htrail]
      by_cases hlast : w = v
      · -- the last one assigned is taken back, with no error
        subst hlast
        rw [unassign_along hlow hhigh hfree, Assignment.value?_cons_self]
        simp
      · rw [Assignment.value?_cons_of_ne (Ne.symm hlast)]
        cases hassigned : Assignment.value? earlier v with
        | none =>
            have hnone : Assignment.value? ((w, value) :: earlier) v = none := by
              rw [Assignment.value?_cons_of_ne (Ne.symm hlast), hassigned]
            rw [unassign_along_of_free hlow hhigh hnone]
            simp [eq_comm]
        | some old =>
            rw [unassign_along_of_ne hlow hhigh hw.2 hlast (by rw [hassigned]; nofun)]
            simp [hlast, eq_comm (a := e)]

/-! ## Why a request is refused -/

theorem setVar_eq_error_iff (hs : Reachable F s) {value : Value} {e : AssignError} :
    s.setVar F asked value = .error e ↔ RefusesSet F s asked e := by
  rw [setVar, bind_eq_error_iff, readVar_eq_error_iff]
  constructor
  · rintro (hnone | ⟨v, hread, hassign⟩)
    · exact .noVariable hnone
    · have hnamed := readVar_eq_ok_iff.1 hread
      obtain ⟨old, hvalue, rfl⟩ := (assign_eq_error_iff hs hnamed.2.1 hnamed.2.2).1 hassign
      exact .assigned hnamed hvalue
  · rintro (hnone | ⟨hnamed, hvalue⟩)
    · exact .inl hnone
    · exact .inr ⟨_, readVar_eq_ok_iff.2 hnamed,
        (assign_eq_error_iff hs hnamed.2.1 hnamed.2.2).2 ⟨_, hvalue, rfl⟩⟩

theorem unset_eq_error_iff (hs : Reachable F s) {e : AssignError} :
    s.unset F asked = .error e ↔ RefusesUnset F s asked e := by
  rw [unset, bind_eq_error_iff, readVar_eq_error_iff]
  constructor
  · rintro (hnone | ⟨v, hread, hunassign⟩)
    · exact .noVariable hnone
    · have hnamed := readVar_eq_ok_iff.1 hread
      rcases (unassign_eq_error_iff hs hnamed.2.1 hnamed.2.2).1 hunassign with
        ⟨hvalue, rfl⟩ | ⟨old, last, hvalue, hlast, hne, rfl⟩
      · exact .free hnamed hvalue
      · exact .notLast hnamed hvalue hlast hne
  · rintro (hnone | ⟨hnamed, hvalue⟩ | ⟨hnamed, hvalue, hlast, hne⟩)
    · exact .inl hnone
    · exact .inr ⟨_, readVar_eq_ok_iff.2 hnamed,
        (unassign_eq_error_iff hs hnamed.2.1 hnamed.2.2).2 (.inl ⟨hvalue, rfl⟩)⟩
    · exact .inr ⟨_, readVar_eq_ok_iff.2 hnamed,
        (unassign_eq_error_iff hs hnamed.2.1 hnamed.2.2).2
          (.inr ⟨_, _, hvalue, hlast, hne, rfl⟩)⟩

/-! ## Cell by cell -/

theorem setVar_ofState (hs : Reachable F s) (asked value : Value) :
    (Sheet.ofState s).setVar F asked value = Sheet.ofChange s (s.setVar F asked value) := by
  obtain ⟨a, -, rfl⟩ := reachable_iff_along.1 hs
  rw [Sheet.setVar]
  cases hread : readVar F asked with
  | error e =>
      rw [setVar_eq_error hread]
      rfl
  | ok v =>
      rw [setVar_eq_assign hread]
      exact Sheet.assign_ofState (inShape_along F a) v _

theorem unset_ofState (hs : Reachable F s) (asked : Value) :
    (Sheet.ofState s).unset F asked = Sheet.ofChange s (s.unset F asked) := by
  obtain ⟨a, -, rfl⟩ := reachable_iff_along.1 hs
  rw [Sheet.unset]
  cases hread : readVar F asked with
  | error e =>
      rw [unset_eq_error hread]
      rfl
  | ok v =>
      rw [unset_eq_unassign hread]
      exact Sheet.unassign_ofState (inShape_along F a) v

/-- A change of a state fails on its sheet when it fails on the state, and then changes nothing. -/
theorem ofChange_eq_error_iff {changed : Except AssignError State} {setback : Setback Sheet} :
    Sheet.ofChange s changed = .error setback ↔
      changed = .error setback.error ∧ setback.left = Sheet.ofState s := by
  obtain ⟨e, left⟩ := setback
  cases changed with
  | ok t => exact iff_of_false nofun nofun
  | error e' => simp [Sheet.ofChange, eq_comm]

/-- How a state is guarded against the requests that name a variable and a value. -/
structure Guarded (F : Formula) (s : State) (asked value : Value) : Prop where
  setVar_iff : ∀ e, s.setVar F asked value = .error e ↔ RefusesSet F s asked e
  unset_iff : ∀ e, s.unset F asked = .error e ↔ RefusesUnset F s asked e
  /-- The sheet is as it was when a request to assign has failed. -/
  setVar_cells_iff : ∀ setback, (Sheet.ofState s).setVar F asked value = .error setback ↔
    RefusesSet F s asked setback.error ∧ setback.left = Sheet.ofState s
  /-- The sheet is as it was when a request to unassign has failed. -/
  unset_cells_iff : ∀ setback, (Sheet.ofState s).unset F asked = .error setback ↔
    RefusesUnset F s asked setback.error ∧ setback.left = Sheet.ofState s
  /-- Nothing is found missing, and there is always something to return to.  What was asked for may
  have too many digits to be told. -/
  isRefusal : ∀ e, RefusesSet F s asked e ∨ RefusesUnset F s asked e →
    (e.IsRefusal ∧ e ≠ .nothingSaved) ∨ (e = .unwritable ∧ asked.isWritable = false)

/-- **Requests are refused for just these reasons, and before anything has been changed.** -/
theorem guarded_of_reachable (hs : Reachable F s) (asked value : Value) :
    Guarded F s asked value := by
  constructor
  case setVar_iff => exact fun e => setVar_eq_error_iff hs
  case unset_iff => exact fun e => unset_eq_error_iff hs
  case setVar_cells_iff =>
    intro setback
    rw [setVar_ofState hs, ofChange_eq_error_iff, setVar_eq_error_iff hs]
  case unset_cells_iff =>
    intro setback
    rw [unset_ofState hs, ofChange_eq_error_iff, unset_eq_error_iff hs]
  case isRefusal =>
    -- only the first reason repeats what was asked for; the others tell of variables
    have hnoVariable : ∀ {e}, NamesNone F asked e →
        (e.IsRefusal ∧ e ≠ .nothingSaved) ∨ (e = .unwritable ∧ asked.isWritable = false) := by
      rintro e (⟨-, -⟩ | ⟨-, hdigits⟩)
      · exact .inl ⟨trivial, nofun⟩
      · exact .inr ⟨rfl, hdigits⟩
    rintro e (hset | hunset)
    · cases hset with
      | noVariable hnone => exact hnoVariable hnone
      | assigned => exact .inl ⟨trivial, nofun⟩
    · cases hunset with
      | noVariable hnone => exact hnoVariable hnone
      | free | notLast => exact .inl ⟨trivial, nofun⟩

/-- The second variable has a value already, and the third one was assigned after it. -/
theorem guarded_of_knotted :
    Reachable Formula.knot knotted ∧
      RefusesSet Formula.knot knotted (.int 2) (.alreadyAssigned 2) ∧
      RefusesUnset Formula.knot knotted (.int 2) (.notLast 2 (.int 3)) ∧
      (Sheet.ofState knotted).setVar Formula.knot (.int 2) (.bool false) =
        .error ⟨.alreadyAssigned 2, Sheet.ofState knotted⟩ ∧
      (Sheet.ofState knotted).unset Formula.knot (.int 2) =
        .error ⟨.notLast 2 (.int 3), Sheet.ofState knotted⟩ := by
  have hnamed : Names Formula.knot (.int 2) 2 := ⟨rfl, by decide, by decide⟩
  have hvalue : knotted.value Formula.knot 2 = .ok (some true) := rfl
  have hset : RefusesSet Formula.knot knotted (.int 2) (.alreadyAssigned 2) :=
    .assigned hnamed hvalue
  have hunset : RefusesUnset Formula.knot knotted (.int 2) (.notLast 2 (.int 3)) :=
    .notLast hnamed hvalue rfl (by decide)
  have hguarded := guarded_of_reachable reachable_knotted (.int 2) (.bool false)
  exact ⟨reachable_knotted, hset, hunset, (hguarded.setVar_cells_iff _).2 ⟨hset, rfl⟩,
    (hguarded.unset_cells_iff _).2 ⟨hunset, rfl⟩⟩

/-- The number of a variable that no formula has, with too many digits to be told. -/
def vastVariable : Value :=
  .int (10 ^ 5000)

theorem namesNone_vastVariable (F : Formula) : NamesNone F vastVariable .unwritable := by
  have hdigits : vastVariable.isWritable = false := by decide +kernel
  refine .untold (fun v hnamed => ?_) hdigits
  obtain ⟨hasked, -, hhigh⟩ := hnamed
  rw [hasked, Value.isWritable, F.isWritable_of_le (Int.natAbs_natCast v ▸ hhigh)] at hdigits
  cases hdigits

/-- What is said of a request that names no variable need not be a refusal. -/
theorem not_isRefusal_of_vastVariable :
    (initial Formula.knot).setVar Formula.knot vastVariable (.bool true) = .error .unwritable ∧
      ¬AssignError.unwritable.IsRefusal :=
  ⟨setVar_eq_error (readVar_eq_error_iff.2 (namesNone_vastVariable _)), id⟩

end State

end TrailSat
