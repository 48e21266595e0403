import TrailSat.Proofs.State.Queries
import TrailSat.Search.Basic

/-!
# Recursive search by evaluation

`Search.explore` is the search as one would write it down first: a function of an assignment that
evaluates every clause afresh, decides the lowest free variable, and calls itself for one value and,
if nothing is found, for the other.  It keeps neither marks nor frames nor branches.  What it does
on the way is collected in an `Exploration`: the decisions and flips as events, with the depth of
the recursion as their level, and the counts of both and of the conflicts.

What it finds satisfies every clause (`satisfies_of_explore`) and extends what it started from
(`suffix_of_explore`).  If it finds nothing, no valuation that extends the given assignment makes
the formula hold (`not_satisfies_of_explore`).  The induction behind the last one is on the calls:
every valuation agrees with one of the two values that are tried for the lowest free variable, and
at a conflict it cannot make the falsified clause true.
-/

namespace TrailSat

namespace Assignment

/-- The variables without a value. -/
def freeVars (F : Formula) (a : Assignment) : List Nat :=
  (List.range' 1 F.numVars).filter fun v => (a.value? v).isNone

theorem freeVars_cons {F : Formula} {a : Assignment} (v : Nat) (value : Bool) :
    freeVars F ((v, value) :: a) = (a.freeVars F).filter fun w => w != v := by
  rw [freeVars, freeVars, List.filter_filter]
  refine List.filter_congr fun w _ => ?_
  by_cases hw : w = v
  · simp [hw]
  · simp [value?_cons_of_ne hw, hw]

/-- Assigning the lowest free variable leaves the others. -/
theorem freeVars_eq_cons {F : Formula} {a : Assignment} {v : Nat} (h : a.firstFree? F = some v)
    (value : Bool) : a.freeVars F = v :: freeVars F ((v, value) :: a) := by
  have hhead : (a.freeVars F).head? = some v := by rw [freeVars, List.head?_filter]; exact h
  obtain ⟨rest, hrest⟩ := List.head?_eq_some_iff.1 hhead
  have hsorted : (v :: rest).Pairwise (· < ·) :=
    hrest ▸ (List.pairwise_lt_range' (s := 1) (n := F.numVars)).filter _
  have hkeep : ∀ w ∈ rest, (w != v) = true := by
    intro w hw
    have hlt : v < w := List.rel_of_pairwise_cons hsorted hw
    simpa using Nat.ne_of_gt hlt
  rw [freeVars_cons, hrest, List.filter_cons_of_neg (by simp), List.filter_eq_self.2 hkeep]

theorem length_freeVars_lt {F : Formula} {a : Assignment} {v : Nat} (h : a.firstFree? F = some v)
    (value : Bool) : (freeVars F ((v, value) :: a)).length < (a.freeVars F).length := by
  rw [freeVars_eq_cons h value]
  exact Nat.lt_succ_self _

end Assignment

namespace Search

/-- What has been done by two searches, one after the other. -/
def Counters.plus (c d : Counters) : Counters where
  decisions := c.decisions + d.decisions
  conflicts := c.conflicts + d.conflicts
  backtracks := c.backtracks + d.backtracks
  maxDepth := max c.maxDepth d.maxDepth

theorem Counters.plus_assoc (c d e : Counters) : (c.plus d).plus e = c.plus (d.plus e) := by
  simp only [plus, Nat.add_assoc, Nat.max_assoc]

/-- What comes of exploring the assignments that extend a given one. -/
structure Exploration where
  /-- The assignment that was found, if there is one. -/
  found : Option Assignment
  counters : Counters
  /-- The decisions and flips, the oldest first. -/
  events : List Trace.Event

namespace Exploration

/-- Two explorations in a row; what counts is what the second one finds. -/
def andThen (first second : Exploration) : Exploration where
  found := second.found
  counters := first.counters.plus second.counters
  events := first.events ++ second.events

/-- A clause is falsified. -/
def conflict : Exploration where
  found := none
  counters := { conflicts := 1 }
  events := []

/-- Every clause is satisfied. -/
def success (a : Assignment) : Exploration where
  found := some a
  counters := {}
  events := []

/-- A variable is decided. -/
def decision (v : Nat) (value : Bool) (level : Nat) : Exploration where
  found := none
  counters := { decisions := 1, maxDepth := level }
  events := [⟨.decision, State.literalOf v value, level⟩]

/-- A variable gets the other value. -/
def flip (v : Nat) (value : Bool) (level : Nat) : Exploration where
  found := none
  counters := { backtracks := 1 }
  events := [⟨.flip, State.literalOf v value, level⟩]

/-- Whether there is a satisfying assignment. -/
def verdict (r : Exploration) : Verdict :=
  if r.found.isSome then .sat else .unsat

/-- The values that were found for the variables. -/
def model (F : Formula) (r : Exploration) : List (Option Bool) :=
  match r.found with
  | none => []
  | some a => (List.range F.numVars).map fun index => a.value? (index + 1)

end Exploration

open Exploration in
/-- Explores the assignments that extend a given one, `depth` decisions below the start. -/
def explore (F : Formula) (firstPhase : Bool) (depth : Nat) (a : Assignment) : Exploration :=
  if F.clauses.any a.falsifies then conflict
  else if F.clauses.all a.satisfies then success a
  else match h : a.firstFree? F with
    -- cannot be: if every variable has a value, every clause is satisfied or falsified
    | none => conflict
    | some v =>
      let first := (decision v firstPhase (depth + 1)).andThen
        (explore F firstPhase (depth + 1) ((v, firstPhase) :: a))
      if first.found.isSome then first
      else (first.andThen (flip v (!firstPhase) (depth + 1))).andThen
        (explore F firstPhase (depth + 1) ((v, !firstPhase) :: a))
termination_by (a.freeVars F).length
decreasing_by
  · exact Assignment.length_freeVars_lt h _
  · exact Assignment.length_freeVars_lt h _

/-! ## What is found -/

theorem satisfies_of_explore {F : Formula} {firstPhase : Bool} {depth : Nat} {a b : Assignment}
    (h : (explore F firstPhase depth a).found = some b) :
    F.clauses.all b.satisfies = true := by
  fun_induction explore F firstPhase depth a with
  | case1 depth a hconflict => cases h
  | case2 depth a hconflict hsolved =>
      obtain rfl := Option.some.inj h
      exact hsolved
  | case3 depth a hconflict hsolved hfree => cases h
  | case4 depth a hconflict hsolved v hfree first hfound ih => exact ih h
  | case5 depth a hconflict hsolved v hfree first hfound ihfirst ihsecond => exact ihsecond h

theorem suffix_of_explore {F : Formula} {firstPhase : Bool} {depth : Nat} {a b : Assignment}
    (h : (explore F firstPhase depth a).found = some b) : a <:+ b := by
  fun_induction explore F firstPhase depth a with
  | case1 depth a hconflict => cases h
  | case2 depth a hconflict hsolved =>
      obtain rfl := Option.some.inj h
      exact List.suffix_refl a
  | case3 depth a hconflict hsolved hfree => cases h
  | case4 depth a hconflict hsolved v hfree first hfound ih =>
      exact (List.suffix_cons ..).trans (ih h)
  | case5 depth a hconflict hsolved v hfree first hfound ihfirst ihsecond =>
      exact (List.suffix_cons ..).trans (ihsecond h)

/-- A valuation that extends an assignment makes the clauses true that the assignment satisfies. -/
theorem satisfies_of_solved {F : Formula} {a : Assignment} {valuation : Valuation}
    (hextends : valuation.Extends a) (hsolved : F.clauses.all a.satisfies = true) :
    valuation.satisfies F = true := by
  refine List.all_eq_true.2 fun clause hclause => ?_
  have hsatisfied := List.all_eq_true.1 hsolved clause hclause
  obtain ⟨l, hl, hholds⟩ := List.any_eq_true.1 hsatisfied
  exact List.any_eq_true.2 ⟨l, hl, Valuation.holds_of_extends hextends hholds⟩

/-! ## What cannot be found -/

/-- A valuation that extends an assignment makes no falsified clause true. -/
theorem not_satisfies_of_conflict {F : Formula} {a : Assignment} {valuation : Valuation}
    (hextends : valuation.Extends a) (hconflict : F.clauses.any a.falsifies = true) :
    valuation.satisfies F = false := by
  obtain ⟨clause, hclause, hfalse⟩ := List.any_eq_true.1 hconflict
  refine List.all_eq_false.2 ⟨clause, hclause, ?_⟩
  rw [Valuation.holdsClause, Bool.not_eq_true, List.any_eq_false]
  intro l hl
  rw [Bool.not_eq_true]
  exact Valuation.not_holds_of_refutes hextends (F.literal_inRange hclause hl).1
    (List.all_eq_true.1 hfalse l hl)

theorem not_satisfies_of_explore {F : Formula} {firstPhase : Bool} {depth : Nat} {a : Assignment}
    (h : (explore F firstPhase depth a).found = none) {valuation : Valuation}
    (hextends : valuation.Extends a) : valuation.satisfies F = false := by
  fun_induction explore F firstPhase depth a with
  | case1 depth a hconflict => exact not_satisfies_of_conflict hextends hconflict
  | case2 depth a hconflict hsolved => cases h
  | case3 depth a hconflict hsolved hfree =>
      exact absurd (Assignment.satisfies_of_not_free hfree hconflict) hsolved
  | case4 depth a hconflict hsolved v hfree first hfound ih =>
      rw [h] at hfound
      cases hfound
  | case5 depth a hconflict hsolved v hfree first hfound ihfirst ihsecond =>
      -- the valuation agrees with the first value of the variable or with the second
      by_cases hvalue : valuation v = firstPhase
      · have hmore := Valuation.extends_cons hextends v
        rw [hvalue] at hmore
        exact ihfirst (Option.not_isSome_iff_eq_none.1 hfound) hmore
      · have hmore := Valuation.extends_cons hextends v
        rw [Bool.eq_not_of_ne hvalue] at hmore
        exact ihsecond h hmore

end Search

end TrailSat
