import TrailSat.State.Basic

/-!
# Assigning on request

Requests name variables, literals and values by untyped data.  A variable is an integer from 1 to
the number of variables; anything else, a truth value included, is refused as `noSuchVariable`, or
as `unwritable` if it cannot be told what was asked for.  A value counts as true or false as untyped
data does.
-/

namespace TrailSat.State

/-- The variable that a value names. -/
def readVar (F : Formula) (asked : Value) : Except AssignError Nat :=
  match asked with
  | .int n =>
    if 1 ≤ n ∧ n ≤ F.numVars then .ok n.toNat
    else .error (AssignError.told (.noSuchVariable asked F.numVars))
  | _ => .error (AssignError.told (.noSuchVariable asked F.numVars))

/-- Gives the variable that a value names the truth value of another. -/
def setVar (F : Formula) (s : State) (asked value : Value) : Except AssignError State := do
  let v ← readVar F asked
  s.assign F v value.isTruthy

/-- Takes back the assignment of the variable that a value names. -/
def unset (F : Formula) (s : State) (asked : Value) : Except AssignError State := do
  let v ← readVar F asked
  s.unassign F v

/-- The entry of the variable that a value names. -/
def valueOf (F : Formula) (s : State) (asked : Value) : Except AssignError (Option Bool) := do
  let v ← readVar F asked
  s.value F v

/-- The truth value of the literal that a value names, if its variable has one.  The outer `none`
says that the value is not a number. -/
def valueOfLiteral? (F : Formula) (s : State) (asked : Value) :
    Option (Except AssignError (Option Bool)) :=
  asked.abs?.map fun size => do
    let entry ← s.valueOf F size
    .ok (entry.map fun value => if asked.lessThan? 1 == some true then !value else value)

/-! ## Calls -/

/-- A call that may change the state. -/
inductive Call where
  | set (asked value : Value)
  | unset (asked : Value)
  | reset
deriving Repr

/-- The state after a call; a refused call changes nothing. -/
def after (F : Formula) (s : State) : Call → State
  | .set asked value => (s.setVar F asked value).toOption.getD s
  | .unset asked => (s.unset F asked).toOption.getD s
  | .reset => initial F

/-- The states that calls lead to from the initial one. -/
def Reachable (F : Formula) (s : State) : Prop :=
  ∃ calls : List Call, s = calls.foldl (after F) (initial F)

/-! ## Printing -/

/-- The number that stands for a variable's value in print. -/
def valueCode : Option Bool → Nat
  | none => 0
  | some false => 1
  | some true => 2

/-- The values of all variables on one line. -/
def printed (s : State) : String :=
  " ".intercalate (s.values.map fun value => toString (valueCode value)) ++ "\n"

end TrailSat.State
