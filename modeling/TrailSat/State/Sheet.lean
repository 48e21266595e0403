import TrailSat.State.Requests

/-!
# Sheets

A sheet holds what a state holds, but its cells may contain anything: whoever keeps a state may
overwrite parts of it by untyped data.  A value counts as *free* if it equals 0; 2 stands for true
and 1 for false, and anything else is an assigned variable that is neither.  The marks, the lists of
active clauses and the trail may have any length, and an active clause may be an index that no
clause has.

`assign` and `unassign` do on a sheet what they do on a state, cell by cell and in order; the list
of active clauses is written over while it is being read (`Pass`).  Where a cell is missing they
stop with an error, and what they have written until then stays.

A sheet on which nothing is out of the ordinary is a state (`toState?`), and every state has its
sheet (`ofState`).
-/

namespace TrailSat

/-- The data of a state in untyped cells. -/
structure Sheet where
  /-- The value of variable `v` stands at place `v - 1`. -/
  values : List Value
  /-- The marks of the literals of each clause. -/
  marks : List (List Value)
  /-- The lists of active clauses, the last saved first; the first is the present one. -/
  frames : List (List Value)
  /-- The assigned variables, the last assigned first. -/
  trail : List Value
deriving Repr

/-- An error, and what it left behind. -/
structure Setback (σ : Type) where
  error : AssignError
  left : σ

/-- What a change of a state amounts to if an error leaves the state as it was. -/
def State.orElse (s : State) (changed : Except AssignError State) : Except (Setback State) State :=
  changed.mapError fun e => ⟨e, s⟩

namespace Sheet

/-! ## Codes -/

/-- The cell for a variable's value. -/
def ofEntry (entry : Option Bool) : Value :=
  .int (State.valueCode entry)

/-- What a cell says of a variable's value. -/
def entryOf (cell : Value) : Option Bool :=
  if cell.isInt 2 then some true else if cell.isInt 1 then some false else none

/-- Whether a cell says that a variable is unassigned. -/
def isFree (cell : Value) : Bool :=
  cell.isInt 0

/-- The cell for a mark. -/
def ofMark : Mark → Value
  | .unset => .int 0
  | .falsified => .int 1
  | .satisfying => .int 2

/-! ## Sheets and states -/

/-- The sheet of a state. -/
def ofState (s : State) : Sheet where
  values := s.values.map ofEntry
  marks := s.marks.map (List.map ofMark)
  frames := (s.active :: s.saved).map (List.map fun (index : Nat) => .int index)
  trail := s.trail.map fun (v : Nat) => .int v

/-- The value of a variable that is written in the ordinary way. -/
def entry? : Value → Option (Option Bool)
  | .int 0 => some none
  | .int 1 => some (some false)
  | .int 2 => some (some true)
  | _ => none

/-- A mark that is written in the ordinary way. -/
def mark? : Value → Option Mark
  | .int 0 => some .unset
  | .int 1 => some .falsified
  | .int 2 => some .satisfying
  | _ => none

/-- A natural number below a bound, if there is a bound. -/
def number? (bound : Option Nat) : Value → Option Nat
  | .int n => if 0 ≤ n ∧ bound.all (n < ·) then some n.toNat else none
  | _ => none

/-- The state that a sheet describes, if it describes one of the formula. -/
def toState? (F : Formula) (sheet : Sheet) : Option State := do
  let values ← sheet.values.mapM entry?
  let marks ← sheet.marks.mapM (List.mapM mark?)
  let frames ← sheet.frames.mapM (List.mapM (number? F.numClauses))
  let trail ← sheet.trail.mapM (number? none)
  guard (values.length = F.numVars ∧ marks.map List.length = F.clauses.map List.length)
  match frames with
  | [] => none
  | active :: saved => some ⟨values, marks, active, saved, trail⟩

/-! ## Queries -/

/-- The number of assignments that can be taken back; negative if not even the first list of active
clauses is there. -/
def depth (sheet : Sheet) : Int :=
  (sheet.frames.length : Int) - 1

/-- The number of variables without a value. -/
def numFree (sheet : Sheet) : Nat :=
  sheet.values.countP isFree

/-- The unassigned variable with the lowest number. -/
def firstFree? (sheet : Sheet) : Option Nat :=
  (sheet.values.findIdx? isFree).map (· + 1)

/-- The indices of the active clauses. -/
def active (sheet : Sheet) : Except AssignError (List Value) :=
  match sheet.frames with
  | [] => .error .noEntry
  | top :: _ => .ok top

/-- Whether every cell of a row is a mark of a false literal. -/
def isFalsified (row : List Value) : Bool :=
  row.all fun cell => cell.isInt 1

/-- Whether every literal of the clause with the given index is marked false. -/
def isConflict (sheet : Sheet) (index : Nat) : Except AssignError Bool :=
  match sheet.marks[index]? with
  | none => .error .noEntry
  | some row => .ok (isFalsified row)

/-- Whether one of the next `count` rows is that of a falsified clause. -/
def anyConflict : (count : Nat) → List (List Value) → Except AssignError Bool
  | 0, _ => .ok false
  | _ + 1, [] => .error .noEntry
  | count + 1, row :: rest => if isFalsified row then .ok true else anyConflict count rest

/-- Whether some clause has all its literals marked false. -/
def hasConflict (F : Formula) (sheet : Sheet) : Except AssignError Bool :=
  anyConflict F.numClauses sheet.marks

/-- Whether no clause is active any more. -/
def isSolved (sheet : Sheet) : Except AssignError Bool :=
  sheet.active.map List.isEmpty

/-- The literals of the assigned variables, in order; a variable that is not true counts as
false. -/
def literals (sheet : Sheet) : List Int :=
  sheet.values.zipIdx.filterMap fun (cell, index) =>
    if isFree cell then none else some (State.literalOf (index + 1) (cell.isInt 2))

/-- The cell of a variable. -/
def value (F : Formula) (sheet : Sheet) (v : Nat) : Except AssignError Value :=
  if 1 ≤ v ∧ v ≤ F.numVars then
    match sheet.values[v - 1]? with
    | some cell => .ok cell
    | none => .error .noEntry
  else .error (.noSuchVariable (.int v) F.numVars)

/-- The cell of the variable that a value names. -/
def valueOf (F : Formula) (sheet : Sheet) (asked : Value) : Except AssignError Value := do
  let v ← State.readVar F asked
  sheet.value F v

/-- The truth value of the literal that a value names, as a cell.  The outer `none` says that the
value is not a number. -/
def valueOfLiteral? (F : Formula) (sheet : Sheet) (asked : Value) :
    Option (Except AssignError Value) :=
  asked.abs?.map fun size => do
    let cell ← sheet.valueOf F size
    if isFree cell || asked.isAbove (.int 0) then .ok cell
    else .ok (.int (if cell.isInt 2 then 1 else 2))

/-- The values of all variables on one line, if they can be written. -/
def printed? (sheet : Sheet) : Option String :=
  if sheet.values.all Value.isWritable then
    some (" ".intercalate (sheet.values.map Value.plain) ++ "\n")
  else none

/-! ## Writing marks -/

/-- Writes marks into the row of a clause, one after the other: `mark?` gives the mark for a
literal, if it is to get one.  The answer tells whether there was a cell for each of them. -/
def writeRow (mark? : Int → Option Mark) : List Int → List Value → List Value × Bool
  | [], row => (row, true)
  | l :: clause, [] => if (mark? l).isSome then ([], false) else writeRow mark? clause []
  | l :: clause, cell :: row =>
    let (rest, complete) := writeRow mark? clause row
    (((mark? l).map ofMark).getD cell :: rest, complete)

/-- The mark of a literal when another one is made true. -/
def markWhen (made l : Int) : Option Mark :=
  if l = made then some .satisfying else if l = -made then some .falsified else none

/-- The mark of a literal when a variable is unassigned. -/
def markWithout (v : Nat) (l : Int) : Option Mark :=
  if l.natAbs = v then some .unset else none

/-! ## Assigning -/

/-- An index that is no place in a row, as an error. -/
def ofSelectError (outOfRange : AssignError) : Value.SelectError → AssignError
  | .notInteger => .indexNotInteger
  | .outOfRange => outOfRange
  | .tooLarge => .indexTooLarge

/-- A pass over a list of active clauses.  The clauses that stay active are written over the front
of the list while it is being read. -/
structure Pass where
  frame : List Value
  /-- The number of clauses that have been read. -/
  read : Nat
  /-- The number of those among them that stay active. -/
  kept : Nat
  marks : List (List Value)

namespace Pass

/-- The pass that has read nothing yet. -/
def start (frame : List Value) (marks : List (List Value)) : Pass :=
  ⟨frame, 0, 0, marks⟩

/-- Writes an active clause behind those that are kept already. -/
def keep (pass : Pass) (index : Value) : Pass :=
  { pass with frame := pass.frame.set pass.kept index, kept := pass.kept + 1 }

/-- Reads the next clause, if there is one, and marks a literal that is made true in it.  The clause
is kept if the literal does not occur. -/
def step (F : Formula) (made : Int) (pass : Pass) : Except (Setback Pass) Pass :=
  match pass.frame[pass.read]? with
  | none => .ok pass
  | some index =>
    match index.placeIn pass.marks.length, index.select F.clauses with
    | .error e, _ => .error ⟨ofSelectError .noEntry e, pass⟩
    | .ok _, .error e => .error ⟨ofSelectError .noClause e, pass⟩
    | .ok place, .ok clause =>
      let (row, complete) := writeRow (markWhen made) clause (pass.marks.getD place [])
      let marked := { pass with read := pass.read + 1, marks := pass.marks.set place row }
      if complete then .ok (if clause.contains made then marked else marked.keep index)
      else .error ⟨.noCell, marked⟩

/-- Reads the next clauses, `count` of them. -/
def run (F : Formula) (made : Int) : (count : Nat) → Pass → Except (Setback Pass) Pass
  | 0, pass => .ok pass
  | count + 1, pass =>
    match pass.step F made with
    | .error setback => .error setback
    | .ok next => run F made count next

end Pass

/-- Gives an unassigned variable a value. -/
def assign (F : Formula) (sheet : Sheet) (v : Nat) (value : Bool) :
    Except (Setback Sheet) Sheet :=
  match sheet.value F v with
  | .error e => .error ⟨e, sheet⟩
  | .ok cell =>
    if isFree cell then
      let noted := { sheet with
        values := sheet.values.set (v - 1) (ofEntry (some value))
        trail := .int v :: sheet.trail }
      match sheet.frames with
      | [] => .error ⟨.noEntry, noted⟩
      | top :: older =>
        match (Pass.start top sheet.marks).run F (State.literalOf v value) top.length with
        | .ok pass =>
          .ok { noted with
            marks := pass.marks, frames := pass.frame.take pass.kept :: top :: older }
        | .error ⟨e, pass⟩ =>
          .error ⟨e, { noted with marks := pass.marks, frames := pass.frame :: top :: older }⟩
    else .error ⟨.alreadyAssigned v, sheet⟩

/-! ## Unassigning -/

/-- Wipes the marks of a variable, clause by clause. -/
def wipe (v : Nat) : List (List Int) → List (List Value) → List (List Value) × Option AssignError
  | [], marks => (marks, none)
  | _ :: _, [] => ([], some .noEntry)
  | clause :: others, row :: rows =>
    let (wiped, complete) := writeRow (markWithout v) clause row
    if complete then
      let (rest, failure) := wipe v others rows
      (wiped :: rest, failure)
    else (wiped :: rows, some .noCell)

/-- Takes back the last assignment, which must be that of the given variable. -/
def unassign (F : Formula) (sheet : Sheet) (v : Nat) : Except (Setback Sheet) Sheet :=
  match sheet.value F v with
  | .error e => .error ⟨e, sheet⟩
  | .ok cell =>
    if isFree cell then .error ⟨.notAssigned v, sheet⟩
    else
      match sheet.frames, sheet.trail with
      | [], _ | [_], _ => .error ⟨.nothingSaved, sheet⟩
      | _ :: _ :: _, [] => .error ⟨.noEntry, sheet⟩
      | _ :: frame :: older, last :: trail =>
        if last.isInt v then
          let (marks, failure) := wipe v F.clauses sheet.marks
          let wiped := {
            values := sheet.values.set (v - 1) (ofEntry none)
            marks := marks
            frames := frame :: older
            trail := trail }
          match failure with
          | none => .ok wiped
          | some e => .error ⟨e, wiped⟩
        else .error ⟨AssignError.told (.notLast v last), sheet⟩

/-! ## On request -/

/-- Gives the variable that a value names the truth value of another. -/
def setVar (F : Formula) (sheet : Sheet) (asked value : Value) : Except (Setback Sheet) Sheet :=
  match State.readVar F asked with
  | .error e => .error ⟨e, sheet⟩
  | .ok v => sheet.assign F v value.isTruthy

/-- Takes back the assignment of the variable that a value names. -/
def unset (F : Formula) (sheet : Sheet) (asked : Value) : Except (Setback Sheet) Sheet :=
  match State.readVar F asked with
  | .error e => .error ⟨e, sheet⟩
  | .ok v => sheet.unassign F v

end Sheet

end TrailSat
