import TrailSat.Formula.Basic
import TrailSat.Number.Integer

/-!
# Flat text

In flat text a whole problem stands on one line: the literals of its clauses in order, each clause
closed by the token `0`.  The number of variables is the greatest that occurs, which is the
assumption on the container of clauses that `Formula.greatestVar` states.  Only the token `0` itself
closes a clause; other spellings of zero count as literals, and are refused when a formula is built.

A file of flat text holds one problem a line; blank lines do not count.
-/

namespace TrailSat.Flat

open Text

/-! ## Writing -/

/-- Why untyped clauses are not written. -/
inductive WriteError where
  /-- The clauses are not a row of lists. -/
  | notLists
  /-- A number has too many digits. -/
  | unwritable
deriving Repr, DecidableEq

/-- An untyped clause as flat text. -/
def writeRow : Value → Except WriteError String
  | .list items =>
    if items.all Value.isWritable then
      .ok (" ".intercalate (items.map Value.plain ++ ["0"]))
    else .error .unwritable
  | _ => .error .notLists

/-- Untyped clauses as flat text; each must be a list, and its items are written as they are. -/
def writeValue (clauses : Value) : Except WriteError String :=
  match clauses.items? with
  | none => .error .notLists
  | some rows => do
    let written ← rows.mapM writeRow
    .ok (" ".intercalate written)

/-- Clauses as flat text. -/
def write (clauses : List (List Int)) : String :=
  " ".intercalate (clauses.map fun clause => " ".intercalate (clause.map toString ++ ["0"]))

/-! ## Reading -/

/-- The clauses that a row of tokens spells; `current` holds the literals of the clause under
construction, the last one first. -/
def readTokens (current : List Int) : List String → Except Number.IntegerError (List (List Int))
  | [] => .ok (if current.isEmpty then [] else [current.reverse])
  | token :: rest =>
    if token == "0" then (readTokens [] rest).map (current.reverse :: ·)
    else match Number.readInteger token with
      | .error e => .error e
      | .ok l => readTokens (l :: current) rest

/-- The clauses of a problem in flat text. -/
def readClauses (line : String) : Except Number.IntegerError (List (List Int)) :=
  readTokens [] (words line)

/-- Why a line is not a problem. -/
inductive ReadError where
  /-- A token is not an integer. -/
  | badToken (error : Number.IntegerError)
  /-- The clauses are not those of a formula. -/
  | flawed (flaw : Formula.Flaw)
deriving Repr

/-- The formula of a problem in flat text. -/
def readFormula (name : Option String) (allowEmpty : Bool) (line : String) :
    Except ReadError Formula :=
  match readClauses line with
  | .error e => .error (.badToken e)
  | .ok clauses =>
    match Formula.ofClauseList name clauses allowEmpty with
    | .error flaw => .error (.flawed flaw)
    | .ok F => .ok F

/-- The problems in the lines of a file. -/
def problems (lines : List String) : List String :=
  (lines.map strip).filter fun line => !line.isEmpty

end TrailSat.Flat
