import TrailSat.Proofs.Number.Decimal
import TrailSat.Proofs.State.Along

/-!
# The reachable states

A call on the state along an assignment leads to the state along another one, which
`Assignment.after` computes on lists alone: a variable is put in front or taken off, everything is
dropped, or nothing happens because the call is refused.  `after_along` says that calls on states
and on lists agree, and `reachable_iff_along` that the reachable states are exactly those along
proper assignments.

`assign_along_eq`, `unassign_along_of_free` and `unassign_along_of_ne` also give the errors with
which a call is refused.
-/

namespace TrailSat

namespace Assignment

/-- The assignment after a call; a refused call changes nothing. -/
def after (F : Formula) (a : Assignment) : State.Call → Assignment
  | .set asked value =>
    match State.readVar F asked with
    | .error _ => a
    | .ok v => if a.value? v = none then (v, value.isTruthy) :: a else a
  | .unset asked =>
    match State.readVar F asked, a with
    | .ok v, (w, _) :: earlier => if w = v then earlier else a
    | _, _ => a
  | .reset => []

end Assignment

namespace State

/-- Requests that name a variable name one of the formula's. -/
theorem inRange_of_readVar {F : Formula} {asked : Value} {v : Nat}
    (h : readVar F asked = .ok v) : 1 ≤ v ∧ v ≤ F.numVars := by
  unfold readVar at h
  split at h
  · split at h
    · obtain rfl := Except.ok.inj h
      omega
    · cases h
  · cases h

theorem readVar_int {F : Formula} {v : Nat} (hlow : 1 ≤ v) (hhigh : v ≤ F.numVars) :
    readVar F (.int v) = .ok v := by
  have hrange : 1 ≤ (v : Int) ∧ (v : Int) ≤ F.numVars := by omega
  simp only [readVar, if_pos hrange, Int.toNat_natCast]

/-! ## What the operations do, and what they refuse -/

/-- Assigning one of the formula's variables fails just when it has a value. -/
theorem assign_along_eq {F : Formula} {a : Assignment} {v : Nat} (hlow : 1 ≤ v)
    (hhigh : v ≤ F.numVars) (value : Bool) :
    (along F a).assign F v value =
      if a.value? v = none then .ok (along F ((v, value) :: a))
      else .error (.alreadyAssigned v) := by
  by_cases hfree : a.value? v = none
  · rw [if_pos hfree, assign_along hlow hhigh hfree]
  · obtain ⟨old, hold⟩ := Option.ne_none_iff_exists'.1 hfree
    rw [if_neg hfree, assign, value_along hlow hhigh, hold]

theorem unassign_along_of_free {F : Formula} {a : Assignment} {v : Nat} (hlow : 1 ≤ v)
    (hhigh : v ≤ F.numVars) (hfree : a.value? v = none) :
    (along F a).unassign F v = .error (.notAssigned v) := by
  rw [unassign, value_along hlow hhigh, hfree]

/-- The numbers of the variables are short enough to be told. -/
theorem told_notLast {F : Formula} {v w : Nat} (hw : w ≤ F.numVars) :
    AssignError.told (.notLast v (.int w)) = .notLast v (.int w) := by
  have hdigits : Number.isWritable w = true :=
    F.isWritable_of_le (Int.natAbs_natCast w ▸ hw)
  rw [AssignError.told, AssignError.isWritable, Value.isWritable, hdigits, if_pos rfl]

/-- Of the variables with a value, all but the last one cannot be unassigned. -/
theorem unassign_along_of_ne {F : Formula} {earlier : Assignment} {v w : Nat} {value : Bool}
    (hlow : 1 ≤ v) (hhigh : v ≤ F.numVars) (hw : w ≤ F.numVars) (hlast : w ≠ v)
    (hassigned : earlier.value? v ≠ none) :
    (along F ((w, value) :: earlier)).unassign F v = .error (.notLast v (.int w)) := by
  obtain ⟨old, hold⟩ := Option.ne_none_iff_exists'.1 hassigned
  rw [unassign, value_along hlow hhigh, Assignment.value?_cons_of_ne (Ne.symm hlast), hold]
  simp [along, Assignment.savedFrames, hlast, told_notLast hw]

theorem setVar_eq_error {F : Formula} {s : State} {asked value : Value} {e : AssignError}
    (h : readVar F asked = .error e) : s.setVar F asked value = .error e := by
  rw [setVar, h]
  rfl

theorem unset_eq_error {F : Formula} {s : State} {asked : Value} {e : AssignError}
    (h : readVar F asked = .error e) : s.unset F asked = .error e := by
  rw [unset, h]
  rfl

theorem setVar_eq_assign {F : Formula} {s : State} {asked value : Value} {v : Nat}
    (h : readVar F asked = .ok v) : s.setVar F asked value = s.assign F v value.isTruthy := by
  rw [setVar, h]
  rfl

theorem unset_eq_unassign {F : Formula} {s : State} {asked : Value} {v : Nat}
    (h : readVar F asked = .ok v) : s.unset F asked = s.unassign F v := by
  rw [unset, h]
  rfl

/-! ## Calls -/

/-- A call on the state along an assignment is a call on the assignment. -/
theorem after_along {F : Formula} {a : Assignment} (ha : a.Proper F) (call : Call) :
    after F (along F a) call = along F (a.after F call) ∧ (a.after F call).Proper F := by
  cases call with
  | set asked value =>
      cases hread : readVar F asked with
      | error e =>
          rw [after, setVar_eq_error hread, Assignment.after, hread]
          exact ⟨rfl, ha⟩
      | ok v =>
          obtain ⟨hlow, hhigh⟩ := inRange_of_readVar hread
          rw [after, setVar_eq_assign hread, assign_along_eq hlow hhigh, Assignment.after, hread]
          by_cases hfree : a.value? v = none
          · simp only [if_pos hfree]
            exact ⟨rfl, ⟨hlow, hhigh⟩, hfree, ha⟩
          · simp only [if_neg hfree]
            exact ⟨rfl, ha⟩
  | unset asked =>
      cases hread : readVar F asked with
      | error e =>
          rw [after, unset_eq_error hread]
          simp only [Assignment.after, hread]
          exact ⟨rfl, ha⟩
      | ok v =>
          obtain ⟨hlow, hhigh⟩ := inRange_of_readVar hread
          rw [after, unset_eq_unassign hread]
          simp only [Assignment.after, hread]
          cases a with
          | nil =>
              rw [unassign_along_of_free hlow hhigh (Assignment.value?_nil v)]
              exact ⟨rfl, ha⟩
          | cons e earlier =>
              obtain ⟨w, value⟩ := e
              by_cases hlast : w = v
              · subst hlast
                obtain ⟨-, hfree, hearlier⟩ := ha
                rw [unassign_along hlow hhigh hfree]
                simp only [if_true]
                exact ⟨rfl, hearlier⟩
              · simp only [if_neg hlast]
                refine ⟨?_, ha⟩
                -- the call is refused, for one reason or the other
                by_cases hfree : Assignment.value? earlier v = none
                · have hvalue := Assignment.value?_cons_of_ne (Ne.symm hlast) value earlier
                  rw [unassign_along_of_free hlow hhigh (hvalue.trans hfree)]
                  rfl
                · rw [unassign_along_of_ne hlow hhigh ha.1.2 hlast hfree]
                  rfl
  | reset => exact ⟨(along_nil F).symm, trivial⟩

theorem foldl_after_along {F : Formula} {a : Assignment} (ha : a.Proper F) (calls : List Call) :
    calls.foldl (after F) (along F a) = along F (calls.foldl (Assignment.after F) a) ∧
      (calls.foldl (Assignment.after F) a).Proper F := by
  induction calls generalizing a with
  | nil => exact ⟨rfl, ha⟩
  | cons call rest ih =>
      obtain ⟨hstep, hproper⟩ := after_along ha call
      rw [List.foldl_cons, List.foldl_cons, hstep]
      exact ih hproper

/-- The state along a proper assignment is reached by making its assignments one by one. -/
theorem reachable_along {F : Formula} {a : Assignment} (ha : a.Proper F) :
    Reachable F (along F a) := by
  induction a with
  | nil => exact ⟨[], along_nil F⟩
  | cons e earlier ih =>
      obtain ⟨v, value⟩ := e
      obtain ⟨⟨hlow, hhigh⟩, hfree, hearlier⟩ := ha
      obtain ⟨calls, hcalls⟩ := ih hearlier
      refine ⟨calls ++ [.set (.int v) (.bool value)], ?_⟩
      rw [List.foldl_append, ← hcalls, List.foldl_cons, List.foldl_nil, after,
        setVar_eq_assign (readVar_int hlow hhigh), assign_along hlow hhigh hfree]
      rfl

theorem reachable_iff_along {F : Formula} {s : State} :
    Reachable F s ↔ ∃ a : Assignment, a.Proper F ∧ s = along F a := by
  constructor
  · rintro ⟨calls, rfl⟩
    have hnil : Assignment.Proper F [] := trivial
    obtain ⟨hcalls, hproper⟩ := foldl_after_along hnil calls
    exact ⟨_, hproper, by rw [← along_nil, hcalls]⟩
  · rintro ⟨a, ha, rfl⟩
    exact reachable_along ha

end State

/-! ## An example

Clauses with repeated and with opposite literals, and a state on the way through them.  The second
variable satisfied the last two clauses before the third one was assigned, so the literal of the
third variable in `[2, -3, 2]` is unmarked although it is true. -/

/-- A formula with repeated and with opposite literals. -/
def Formula.knot : Formula where
  name := none
  numVars := 3
  clauses := [[1, -1], [-2, -2, 3], [2, -3, 2], [-1, 2]]
  inRange := by decide
  hasRoom := by decide

/-- The second variable is true, then the third one false. -/
def State.knotted : State where
  values := [none, some true, some false]
  marks := [[.unset, .unset], [.falsified, .falsified, .falsified],
    [.satisfying, .unset, .satisfying], [.unset, .satisfying]]
  active := [0, 1]
  saved := [[0, 1], [0, 1, 2, 3]]
  trail := [3, 2]

/-- Some of the calls are refused, and one assignment is taken back. -/
theorem State.reachable_knotted : Reachable Formula.knot knotted :=
  ⟨[.set (.int 2) (.bool true), .set (.int 2) (.bool false), .set (.int 1) (.bool true),
    .unset (.int 2), .unset (.int 1), .set (.int 3) (.int 0), .set (.bool true) .null], by decide⟩

end TrailSat
