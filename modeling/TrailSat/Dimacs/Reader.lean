import TrailSat.Formula.Basic
import TrailSat.Number.Integer

/-!
# Reading DIMACS text

DIMACS text is read line by line.  Blank lines and comments, which begin with `c` or `C`, are
skipped, and a line that begins with `%` ends the text.  One problem line, `p cnf` and two sizes,
comes before the clauses.  A clause is a row of literals closed by a zero; it may run over several
lines, and the last one need not be closed.

`readLines` takes in the lines one after the other and stops at the first that is wrong.  What is
wrong with the text as a whole, that the problem line is missing, that the number of clauses is not
the declared one, or that a clause is empty, is found by `finish` at the end.

Not every failure is the fault of the text (`Cause.blamesText`).  There may be no room for the
variables, or the limit on the literals of a clause may be no number, or have too many digits for a
message that has to name it.  Such a failure is not put down to a line.
-/

namespace TrailSat.Dimacs

open Text

/-- What to accept. -/
structure Options where
  /-- Whether clauses may be empty. -/
  allowEmpty : Bool := true
  /-- The greatest number of literals in a clause, if that is limited.  It should be a number, but
  is not looked at before there is a literal. -/
  maxClauseLength : Option Value := none

/-- What can be wrong with a text. -/
inductive Cause where
  | duplicateProblemLine
  | badProblemLine (line : String)
  | negativeCounts (line : String)
  | clauseBeforeProblemLine
  | badLiteral (token : String)
  | literalOutOfRange (literal : Int) (numVars : Nat)
  | clauseTooLong (limit : Value)
  /-- The limit on the literals of a clause is not a number. -/
  | unusableLimit
  | missingProblemLine
  | wrongCount (declared found : Nat)
  | flawed (flaw : Formula.Flaw)
  /-- What is wrong cannot be told, because a number in it has too many digits. -/
  | unwritable
deriving Repr

/-- Why a text is not read: a cause and, if a line of the text is at fault, that line. -/
structure ParseError where
  line : Option Nat
  cause : Cause
deriving Repr

/-- The words in which a cause is reported. -/
def Cause.message : Cause → String
  | duplicateProblemLine => "duplicate problem line"
  | badProblemLine line => "bad problem line '" ++ line ++ "'"
  | negativeCounts line => "negative counts in problem line '" ++ line ++ "'"
  | clauseBeforeProblemLine => "clause before problem line"
  | badLiteral token => "bad literal '" ++ token ++ "'"
  | literalOutOfRange literal numVars =>
    "literal " ++ toString literal ++ " out of range for " ++ toString numVars ++ " variables"
  | clauseTooLong limit => "clause longer than " ++ limit.plain ++ " literals"
  | unusableLimit => "the limit on the literals of a clause is not a number"
  | missingProblemLine => "missing problem line"
  | wrongCount declared found =>
    "header declares " ++ toString declared ++ " clauses, found " ++ toString found
  | flawed flaw => flaw.message
  | unwritable => Number.unwritableMessage

/-- The words in which an error is reported. -/
def ParseError.message (e : ParseError) : String :=
  match e.line with
  | none => e.cause.message
  | some line => "line " ++ toString line ++ ": " ++ e.cause.message

/-- Whether the text is at fault.  Otherwise it is what was asked for, or the lack of room. -/
def Cause.blamesText : Cause → Bool
  | unusableLimit | unwritable | flawed (.noRoom _) | flawed .unwritable => false
  | _ => true

/-- The cause that a clause is longer than the limit, if that can be told. -/
def Cause.ofLimit (limit : Value) : Cause :=
  if limit.isWritable then clauseTooLong limit else unwritable

/-- The error that a cause leads to when it is met on a line. -/
def Cause.atLine (cause : Cause) (line : Nat) : ParseError :=
  ⟨if cause.blamesText then some line else none, cause⟩

/-! ## Kinds of lines -/

/-- What a line is for. -/
inductive Line where
  /-- A blank line or a comment. -/
  | skipped
  /-- The end of the text. -/
  | endMark
  /-- A problem line. -/
  | problem (text : String)
  /-- Literals. -/
  | literals (text : String)
deriving Repr, DecidableEq

/-- The kind of a line, known by its first character that is not blank. -/
def Line.ofText (line : String) : Line :=
  let text := strip line
  match text.toList with
  | [] => skipped
  | first :: _ =>
    if first == 'c' || first == 'C' then skipped
    else if first == '%' then endMark
    else if first == 'p' then problem text
    else literals text

/-! ## Taking in lines -/

/-- What has been read so far. -/
structure Draft where
  /-- The numbers of variables and clauses, once the problem line has been read. -/
  sizes : Option (Nat × Nat) := none
  /-- The closed clauses, the last one first. -/
  closed : List (List Int) := []
  /-- The literals of the clause under construction, the last one first. -/
  current : List Int := []
deriving Repr, DecidableEq

/-- The sizes that a problem line declares. -/
def readProblem (text : String) : Except Cause (Nat × Nat) :=
  match words text with
  | ["p", "cnf", numVars, numClauses] =>
    match Number.readInteger numVars, Number.readInteger numClauses with
    | .ok vars, .ok clauses =>
      if vars < 0 ∨ clauses < 0 then .error (.negativeCounts text)
      else .ok (vars.toNat, clauses.toNat)
    | _, _ => .error (.badProblemLine text)
  | _ => .error (.badProblemLine text)

/-- Takes in one token of a clause: a zero closes the clause, anything else is a literal. -/
def readToken (options : Options) (numVars : Nat) (draft : Draft) (token : String) :
    Except Cause Draft :=
  match Number.readInteger token with
  | .error _ => .error (.badLiteral token)
  | .ok l =>
    if l = 0 then
      .ok { draft with closed := draft.current.reverse :: draft.closed, current := [] }
    else if numVars < l.natAbs then .error (.literalOutOfRange l numVars)
    else
      let current := l :: draft.current
      match options.maxClauseLength with
      | none => .ok { draft with current := current }
      | some limit =>
        match limit.lessThan? current.length with
        | none => .error .unusableLimit
        | some true => .error (.ofLimit limit)
        | some false => .ok { draft with current := current }

/-- Takes in one line. -/
def readLine (options : Options) (draft : Draft) : Line → Except Cause Draft
  | .skipped | .endMark => .ok draft
  | .problem text =>
    match draft.sizes with
    | some _ => .error .duplicateProblemLine
    | none => (readProblem text).map fun sizes => { draft with sizes := some sizes }
  | .literals text =>
    match draft.sizes with
    | none => .error .clauseBeforeProblemLine
    | some (numVars, _) => (words text).foldlM (readToken options numVars) draft

/-- Takes in lines, of which `number` have been read already, up to the end mark.  The answer tells
whether there was one. -/
def readLines (options : Options) (number : Nat) (draft : Draft) :
    List String → Except ParseError (Draft × Bool)
  | [] => .ok (draft, false)
  | line :: rest =>
    let kind := Line.ofText line
    if kind = .endMark then .ok (draft, true)
    else match readLine options draft kind with
      | .error cause => .error (cause.atLine (number + 1))
      | .ok next => readLines options (number + 1) next rest

/-! ## The text as a whole -/

/-- The clauses read so far, in order; one that is under construction counts as closed. -/
def Draft.clauses (draft : Draft) : List (List Int) :=
  let unclosed := if draft.current.isEmpty then [] else [draft.current.reverse]
  draft.closed.reverse ++ unclosed

/-- The formula that has been read. -/
def finish (options : Options) (name : Option String) (draft : Draft) :
    Except ParseError Formula :=
  match draft.sizes with
  | none => .error ⟨none, .missingProblemLine⟩
  | some (numVars, numClauses) =>
    if draft.clauses.length ≠ numClauses then
      .error ⟨none, .wrongCount numClauses draft.clauses.length⟩
    else match Formula.ofClauses name numVars numClauses draft.clauses options.allowEmpty with
      | .error flaw => .error ⟨none, .flawed flaw⟩
      | .ok F => .ok F

/-- The formula that the lines of a DIMACS text describe. -/
def parse (options : Options) (name : Option String) (lines : List String) :
    Except ParseError Formula := do
  let (draft, _) ← readLines options 0 {} lines
  finish options name draft

end TrailSat.Dimacs
