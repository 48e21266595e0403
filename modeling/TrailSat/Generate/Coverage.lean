import Std.Data.TreeMap
import TrailSat.Generate.Generator

/-!
# Covering all variables

A generated problem should mention every variable.  `cover` goes through the variables in order and
gives each that occurs nowhere the place of a literal whose variable occurs elsewhere too.  Such a
literal is *spare*; which of them is replaced is drawn.  Under an assignment the new literal agrees
with it, otherwise its sign is drawn.

How often each variable occurs is counted once, before the first change.  From then on the table is
kept along with the clauses: the variable that gives up a literal loses one, and the new variable has
one.  Whether a variable occurs, and whether a literal is spare, is looked up in it.

A failure leaves the clauses as they were changed until then.
-/

namespace TrailSat.Generate

variable {Gen : Type} [Generator Gen]

/-! ## Counts -/

/-- How often each variable occurs. -/
abbrev Tally : Type :=
  Std.TreeMap Nat Nat

/-- How often each variable occurs in a row of literals, on top of earlier counts. -/
def countVars (counts : Tally) (literals : List Int) : Tally :=
  literals.foldl (fun counts l => counts.insert l.natAbs (counts.getD l.natAbs 0 + 1)) counts

/-- How often each variable occurs in a list of clauses. -/
def tally (clauses : List (List Int)) : Tally :=
  countVars ∅ clauses.flatten

/-- Clauses and a table of how often each variable occurs in them. -/
structure Tallied where
  clauses : List (List Int)
  counts : Tally

/-- The clauses with a table that has just been made. -/
def Tallied.ofClauses (clauses : List (List Int)) : Tallied where
  clauses := clauses
  counts := tally clauses

/-! ## Places -/

/-- The places of the spare literals, as pairs of a clause index and an index in the clause. -/
def Tallied.sparePlaces (state : Tallied) : List (Nat × Nat) :=
  state.clauses.zipIdx.flatMap fun (clause, i) =>
    clause.zipIdx.filterMap fun (l, k) =>
      if 1 < state.counts.getD l.natAbs 0 then some (i, k) else none

/-- The literal at a place. -/
def literalAt (clauses : List (List Int)) (place : Nat × Nat) : Int :=
  (clauses.getD place.1 []).getD place.2 0

/-- The clauses with the literal at one place replaced. -/
def replaceAt (clauses : List (List Int)) (place : Nat × Nat) (l : Int) : List (List Int) :=
  clauses.modify place.1 fun clause => clause.set place.2 l

/-- Puts a literal of the variable `v` in the place of another literal. -/
def Tallied.patch (state : Tallied) (place : Nat × Nat) (v : Nat) (positive : Bool) : Tallied :=
  let donor := (literalAt state.clauses place).natAbs
  { clauses := replaceAt state.clauses place (if positive then v else -v)
    counts := (state.counts.insert donor (state.counts.getD donor 0 - 1)).insert v 1 }

/-! ## The loop -/

/-- Clauses on the way to covering all variables. -/
structure Covered where
  clauses : List (List Int)
  failure : Option SamplingError
deriving Repr, DecidableEq

/-- The sign of a new literal: that of the assignment if there is one, or else a drawn one. -/
def newSign (assignment : Option (List Bool)) (v : Nat) :
    StateM Gen (Except SamplingError Bool) :=
  match assignment with
  | none => do
    let sign ← drawBool
    return .ok sign
  | some values =>
    match values[v - 1]? with
    | none => return .error .shortAssignment
    | some value => return .ok value

/-- Gives the variable `v`, which occurs nowhere, the place of a spare literal. -/
def coverVar (assignment : Option (List Bool)) (state : Tallied) (v : Nat) :
    StateM Gen (Except SamplingError Tallied) :=
  let places := state.sparePlaces
  if places.isEmpty then return .error .noSpareLiteral
  else do
    let index ← Generator.below places.length
    let sign ← newSign assignment v
    return sign.map fun positive => state.patch (places.getD index (0, 0)) v positive

/-- Covers the `count` variables from `v` on. -/
def coverFrom (assignment : Option (List Bool)) (v count : Nat) (state : Tallied) :
    StateM Gen Covered :=
  match count with
  | 0 => return ⟨state.clauses, none⟩
  | count + 1 =>
    if state.counts.contains v then coverFrom assignment (v + 1) count state
    else do
      match ← coverVar assignment state v with
      | .error e => return ⟨state.clauses, some e⟩
      | .ok next => coverFrom assignment (v + 1) count next

/-- Covers the variables `1 … numVars`. -/
def cover (assignment : Option (List Bool)) (numVars : Int) (clauses : List (List Int)) :
    StateM Gen Covered :=
  coverFrom assignment 1 numVars.toNat (.ofClauses clauses)

end TrailSat.Generate
