import TrailSat.State.Sheet

/-!
# Ledgers

Whoever keeps a state and lets others overwrite it keeps a *ledger*: a state as long as that is what
the data describes, and a sheet from the moment it does not.  A ledger is asked and changed by
untyped data, and answers in untyped cells.
-/

namespace TrailSat

/-- A state, or a sheet that describes none. -/
inductive Ledger where
  | regular (s : State)
  | irregular (sheet : Sheet)
deriving Repr

namespace Ledger

/-- The ledger in which nothing is assigned. -/
def initial (F : Formula) : Ledger :=
  .regular (State.initial F)

/-- The ledger with the data of a sheet. -/
def ofSheet (F : Formula) (sheet : Sheet) : Ledger :=
  match sheet.toState? F with
  | some s => .regular s
  | none => .irregular sheet

/-- All data of a ledger. -/
def cells : Ledger → Sheet
  | .regular s => Sheet.ofState s
  | .irregular sheet => sheet

/-! ## Queries -/

/-- The number of assigned variables. -/
def numAssigned : Ledger → Nat
  | .regular s => s.trail.length
  | .irregular sheet => sheet.trail.length

/-- The number of assignments that can be taken back. -/
def depth : Ledger → Int
  | .regular s => s.depth
  | .irregular sheet => sheet.depth

/-- The indices of the active clauses. -/
def active : Ledger → Except AssignError (List Value)
  | .regular s => .ok (s.active.map fun (index : Nat) => .int index)
  | .irregular sheet => sheet.active

/-- The literals of the assigned variables, in order. -/
def literals : Ledger → List Int
  | .regular s => s.literals
  | .irregular sheet => sheet.literals

/-- The values of all variables on one line, if they can be written. -/
def printed? : Ledger → Option String
  | .regular s => some s.printed
  | .irregular sheet => sheet.printed?

/-- Whether every literal of the clause with the given index is marked false. -/
def isConflict (ledger : Ledger) (index : Nat) : Except AssignError Bool :=
  match ledger with
  | .regular s => .ok (s.isConflict index)
  | .irregular sheet => sheet.isConflict index

/-- The cell of the variable that a value names. -/
def valueOf (F : Formula) (ledger : Ledger) (asked : Value) : Except AssignError Value :=
  match ledger with
  | .regular s => (s.valueOf F asked).map Sheet.ofEntry
  | .irregular sheet => sheet.valueOf F asked

/-- The truth value of the literal that a value names, as a cell.  The outer `none` says that the
value is not a number. -/
def valueOfLiteral? (F : Formula) (ledger : Ledger) (asked : Value) :
    Option (Except AssignError Value) :=
  match ledger with
  | .regular s => (s.valueOfLiteral? F asked).map fun found => found.map Sheet.ofEntry
  | .irregular sheet => sheet.valueOfLiteral? F asked

/-! ## Changes -/

/-- What a change comes to on a ledger. -/
def ofChange {σ : Type} (ledger : σ → Ledger) (changed : Except (Setback σ) σ) :
    Except (Setback Ledger) Ledger :=
  match changed with
  | .ok s => .ok (ledger s)
  | .error setback => .error ⟨setback.error, ledger setback.left⟩

/-- Gives an unassigned variable a value. -/
def assign (F : Formula) (ledger : Ledger) (v : Nat) (value : Bool) :
    Except (Setback Ledger) Ledger :=
  match ledger with
  | .regular s => ofChange .regular (s.orElse (s.assign F v value))
  | .irregular sheet => ofChange .irregular (sheet.assign F v value)

/-- Takes back the last assignment, which must be that of the given variable. -/
def unassign (F : Formula) (ledger : Ledger) (v : Nat) : Except (Setback Ledger) Ledger :=
  match ledger with
  | .regular s => ofChange .regular (s.orElse (s.unassign F v))
  | .irregular sheet => ofChange .irregular (sheet.unassign F v)

/-- Gives the variable that a value names the truth value of another. -/
def setVar (F : Formula) (ledger : Ledger) (asked value : Value) :
    Except (Setback Ledger) Ledger :=
  match ledger with
  | .regular s => ofChange .regular (s.orElse (s.setVar F asked value))
  | .irregular sheet => ofChange .irregular (sheet.setVar F asked value)

/-- Takes back the assignment of the variable that a value names. -/
def unset (F : Formula) (ledger : Ledger) (asked : Value) : Except (Setback Ledger) Ledger :=
  match ledger with
  | .regular s => ofChange .regular (s.orElse (s.unset F asked))
  | .irregular sheet => ofChange .irregular (sheet.unset F asked)

end Ledger

end TrailSat
