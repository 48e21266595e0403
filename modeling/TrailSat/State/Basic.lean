import TrailSat.Formula.Basic

/-!
# Backtrackable assignments

While a formula is being solved, its variables are assigned and unassigned again in the manner of a
stack.  A `State` holds

* the `values` of the variables,
* a `Mark` for every literal of every clause, in the same shape as the clauses,
* the indices of the `active` clauses, those in which no literal has been made true,
* the lists of active clauses to return to, one `saved` by each assignment, and
* the `trail` of assigned variables.

`assign` gives a variable a value: it saves the active clauses, marks the variable's literals in
them, and keeps those in which none became true.  `unassign` takes back the last assignment: it
returns to the saved active clauses and wipes the marks of the variable in the whole formula.  Both
refuse anything else with an `AssignError` and no change.
-/

namespace TrailSat

/-- What is known of a literal in a clause. -/
inductive Mark where
  /-- The literal's variable is unassigned, or was assigned when the clause was inactive. -/
  | unset
  /-- The literal was made false. -/
  | falsified
  /-- The literal was made true. -/
  | satisfying
deriving Repr, DecidableEq, Inhabited

/-- Why a variable cannot be read, assigned or unassigned. -/
inductive AssignError where
  /-- There is no such variable. -/
  | noSuchVariable (asked : Value) (numVars : Nat)
  /-- The variable has a value already. -/
  | alreadyAssigned (var : Nat)
  /-- The variable has no value. -/
  | notAssigned (var : Nat)
  /-- Nothing has been saved to return to. -/
  | nothingSaved
  /-- Another variable was assigned last. -/
  | notLast (var : Nat) (last : Value)
  /-- An entry that should be there is missing. -/
  | noEntry
  /-- An active clause is none of the formula's. -/
  | noClause
  /-- A mark was to be made behind the end of a row. -/
  | noCell
  /-- The index of an active clause is beyond the size of any row. -/
  | indexTooLarge
  /-- The index of an active clause is not an integer. -/
  | indexNotInteger
  /-- What is wrong cannot be told, because a number in it has too many digits. -/
  | unwritable
deriving Repr

/-- The words in which the error is reported. -/
def AssignError.message : AssignError → String
  | noSuchVariable asked numVars =>
    "Variable " ++ asked.shown ++ " out of range 1.." ++ toString numVars ++ "."
  | alreadyAssigned var =>
    "Reassignment of an already-assigned variable " ++ toString var ++ "."
  | notAssigned var => "Variable " ++ toString var ++ " is not assigned."
  | nothingSaved => "Clause stack is at the base frame."
  | notLast var last =>
    "Variable " ++ toString var ++ " unset out of order, last assigned is " ++ last.plain ++ "."
  | noEntry => "list index out of range"
  | noClause => "tuple index out of range"
  | noCell => "list assignment index out of range"
  | indexTooLarge => "cannot fit 'int' into an index-sized integer"
  | indexNotInteger => "list indices must be integers"
  | unwritable => Number.unwritableMessage

/-- Whether the values that the error tells of can be written. -/
def AssignError.isWritable : AssignError → Bool
  | noSuchVariable asked _ => asked.isWritable
  | notLast _ last => last.isWritable
  | _ => true

/-- The error, if it can be told. -/
def AssignError.told (e : AssignError) : AssignError :=
  if e.isWritable then e else unwritable

/-- How far the assignment of a formula's variables has gone. -/
structure State where
  /-- The value of variable `v` stands at place `v - 1`. -/
  values : List (Option Bool)
  /-- The marks of the literals of each clause. -/
  marks : List (List Mark)
  /-- The indices of the clauses in which no literal has been made true. -/
  active : List Nat
  /-- The former active clauses, the last saved first. -/
  saved : List (List Nat)
  /-- The assigned variables, the last assigned first. -/
  trail : List Nat
deriving Repr, DecidableEq

namespace State

/-- The state in which nothing is assigned. -/
def initial (F : Formula) : State where
  values := List.replicate F.numVars none
  marks := F.clauses.map fun clause => List.replicate clause.length .unset
  active := F.indices
  saved := []
  trail := []

/-! ## Queries -/

/-- The number of assignments that can be taken back. -/
def depth (s : State) : Nat :=
  s.saved.length

/-- The number of variables without a value. -/
def numFree (s : State) : Nat :=
  s.values.countP (· == none)

/-- The unassigned variable with the lowest number. -/
def firstFree? (s : State) : Option Nat :=
  (s.values.findIdx? (· == none)).map (· + 1)

/-- Whether every literal of the clause with the given index is marked false. -/
def isConflict (s : State) (index : Nat) : Bool :=
  (s.marks.getD index []).all (· == .falsified)

/-- Whether some clause has all its literals marked false. -/
def hasConflict (s : State) : Bool :=
  s.marks.any fun row => row.all (· == .falsified)

/-- Whether no clause is active any more. -/
def isSolved (s : State) : Bool :=
  s.active.isEmpty

/-- The literal of a variable that is true under a value. -/
def literalOf (v : Nat) (value : Bool) : Int :=
  if value then v else -v

/-- The literals that are true, in the order of their variables. -/
def literals (s : State) : List Int :=
  s.values.zipIdx.filterMap fun (value, index) => value.map (literalOf (index + 1))

/-- The entry of a variable: its value, if it has one. -/
def value (F : Formula) (s : State) (v : Nat) : Except AssignError (Option Bool) :=
  if 1 ≤ v ∧ v ≤ F.numVars then
    match s.values[v - 1]? with
    | some entry => .ok entry
    | none => .error .noEntry
  else .error (.noSuchVariable (.int v) F.numVars)

/-! ## Assigning -/

/-- The marks of a clause after a literal was made true. -/
def markClause (made : Int) (clause : List Int) (row : List Mark) : List Mark :=
  List.zipWith (fun l mark =>
    if l = made then .satisfying else if l = -made then .falsified else mark) clause row

/-- For each of `count` places, whether it is on a list. -/
def listed (count : Nat) (places : List Nat) : Array Bool :=
  places.foldl (fun flags place => flags.setIfInBounds place true) (Array.replicate count false)

/-- Marking the places on a list marks just these, and leaves those marked before. -/
theorem getD_foldl_setIfInBounds (places : List Nat) (flags : Array Bool) (place : Nat) :
    (places.foldl (fun flags place => flags.setIfInBounds place true) flags).getD place false =
      (flags.getD place false || decide (place < flags.size) && places.contains place) := by
  induction places generalizing flags with
  | nil => simp
  | cons first rest ih =>
    rw [List.foldl_cons, ih, List.contains_cons, Array.size_setIfInBounds]
    simp only [Array.getD_eq_getD_getElem?, Array.getElem?_setIfInBounds]
    by_cases hplace : first = place
    · by_cases hsize : place < flags.size <;> simp [hplace, hsize]
    · simp [hplace, beq_false_of_ne (Ne.symm hplace)]

/-- A place is marked as listed if there is such a place and it is on the list. -/
theorem getD_listed (count : Nat) (places : List Nat) (place : Nat) :
    (listed count places).getD place false = (decide (place < count) && places.contains place) := by
  rw [listed, getD_foldl_setIfInBounds]
  by_cases h : place < count <;> simp [h, Array.getD_eq_getD_getElem?]

/-- The marks of a formula after a literal was made true in the active clauses. -/
def markActive (F : Formula) (active : List Nat) (made : Int) (marks : List (List Mark)) :
    List (List Mark) :=
  let isActive := listed F.numClauses active
  (F.clauses.zip marks).zipIdx.map fun ((clause, row), index) =>
    if isActive.getD index false then markClause made clause row else row

/-- The active clauses in which a literal does not occur. -/
def activeWithout (F : Formula) (active : List Nat) (made : Int) : List Nat :=
  let clauses := F.clauses.toArray
  active.filter fun index => !(clauses.getD index []).contains made

/-- Gives an unassigned variable a value. -/
def assign (F : Formula) (s : State) (v : Nat) (value : Bool) : Except AssignError State :=
  match s.value F v with
  | .error e => .error e
  | .ok (some _) => .error (.alreadyAssigned v)
  | .ok none =>
    let made := literalOf v value
    .ok {
      values := s.values.set (v - 1) (some value)
      marks := markActive F s.active made s.marks
      active := activeWithout F s.active made
      saved := s.active :: s.saved
      trail := v :: s.trail }

/-! ## Unassigning -/

/-- The marks of a clause without those of a variable. -/
def wipeClause (v : Nat) (clause : List Int) (row : List Mark) : List Mark :=
  List.zipWith (fun l mark => if l.natAbs = v then .unset else mark) clause row

/-- Takes back the last assignment, which must be that of the given variable. -/
def unassign (F : Formula) (s : State) (v : Nat) : Except AssignError State :=
  match s.value F v with
  | .error e => .error e
  | .ok none => .error (.notAssigned v)
  | .ok (some _) =>
    match s.saved, s.trail with
    | [], _ => .error .nothingSaved
    | _ :: _, [] => .error .noEntry
    | frame :: saved, last :: trail =>
      if last = v then .ok {
        values := s.values.set (v - 1) none
        marks := List.zipWith (wipeClause v) F.clauses s.marks
        active := frame
        saved := saved
        trail := trail }
      else .error (AssignError.told (.notLast v (.int last)))

end State

end TrailSat
