import TrailSat.Formula.Basic

/-!
# Truth of formulas

A valuation gives every variable a truth value.  A literal holds when its variable has the value
that its sign asks for, a clause when one of its literals holds, and a formula when all its clauses
hold.
-/

namespace TrailSat

/-- A truth value for every variable. -/
abbrev Valuation : Type :=
  Nat → Bool

namespace Valuation

/-- Whether a literal holds. -/
def holds (valuation : Valuation) (l : Int) : Bool :=
  if 0 < l then valuation l.natAbs else !valuation l.natAbs

/-- Whether some literal of a clause holds. -/
def holdsClause (valuation : Valuation) (clause : List Int) : Bool :=
  clause.any valuation.holds

/-- Whether all clauses of a formula hold. -/
def satisfies (valuation : Valuation) (F : Formula) : Bool :=
  F.clauses.all valuation.holdsClause

end Valuation

/-- Some valuation makes the formula hold. -/
def Formula.Satisfiable (F : Formula) : Prop :=
  ∃ valuation : Valuation, valuation.satisfies F

end TrailSat
