import TrailSat.Value.Shown

/-!
# Formulas in conjunctive normal form

Variables are numbered from 1.  A literal is a nonzero integer, `v` for the variable `v` and `-v`
for its negation; a clause is a list of literals and a formula a list of clauses.  Literals may
repeat in a clause, opposite literals may stand together, and a clause may be empty.

A formula is built from clauses together with the sizes it is expected to have.  `ofClauses` takes
integers and `ofValues` untyped data; both check the literals of a clause in order, clause after
clause, then the number of clauses, and last whether there is room for the variables.  What they
find wrong is a `Flaw`.
-/

namespace TrailSat

/-- The literals over the variables `1 … numVars`. -/
abbrev Literal (numVars : Nat) : Type :=
  { l : Int // l ≠ 0 ∧ l.natAbs ≤ numVars }

/-- A formula in conjunctive normal form. -/
structure Formula where
  /-- What the formula is called, if it has a name. -/
  name : Option String
  /-- The variables are `1 … numVars`. -/
  numVars : Nat
  /-- The clauses, in order. -/
  clauses : List (List Int)
  inRange : ∀ clause ∈ clauses, ∀ l ∈ clause, l ≠ 0 ∧ l.natAbs ≤ numVars
  /-- There can be a row with a value for each variable. -/
  hasRoom : numVars < Value.rowBound
deriving DecidableEq

namespace Formula

/-- The number of clauses. -/
def numClauses (F : Formula) : Nat :=
  F.clauses.length

/-- The indices of the clauses. -/
def indices (F : Formula) : List Nat :=
  List.range F.numClauses

/-- Whether some clause is empty, and cannot be satisfied. -/
def hasEmptyClause (F : Formula) : Bool :=
  F.clauses.any List.isEmpty

/-- The clause with the given index; there are no literals beyond the last one. -/
def clause (F : Formula) (index : Nat) : List Int :=
  F.clauses.getD index []

/-! ## What can be wrong -/

/-- Why there is no room for the variables. -/
inductive Shortage where
  /-- Their number is beyond the size of any row. -/
  | index
  /-- There is not enough memory. -/
  | memory
deriving Repr, DecidableEq

/-- The words in which a shortage is reported, if there are any. -/
def Shortage.message : Shortage → String
  | index => "cannot fit 'int' into an index-sized integer"
  | memory => ""

/-- What is short when there are to be so many variables. -/
def Shortage.ofVars (numVars : Nat) : Shortage :=
  if Value.indexBound ≤ numVars then index else memory

/-- Why data is not a formula. -/
inductive Flaw where
  /-- The number of variables or of clauses is not an integer. -/
  | sizeNotInteger (size : Value)
  /-- The number of variables or of clauses is negative. -/
  | negativeSize (numVars numClauses : Int)
  /-- The clauses, or the literals of a clause, are not a row of items. -/
  | notRow
  /-- A literal is not an integer. -/
  | literalNotInteger (clause : Nat) (literal : Value)
  /-- A literal is zero. -/
  | zeroLiteral (clause : Nat)
  /-- A literal's variable is too large. -/
  | literalOutOfRange (clause : Nat) (literal : Int) (numVars : Nat)
  /-- A clause is empty although that was ruled out. -/
  | emptyClause (clause : Nat)
  /-- There are more or fewer clauses than expected. -/
  | wrongCount (expected found : Nat)
  /-- There are too many variables. -/
  | noRoom (shortage : Shortage)
  /-- What is wrong cannot be told, because a number in it has too many digits. -/
  | unwritable
deriving Repr

/-- The words in which a flaw is reported. -/
def Flaw.message : Flaw → String
  | sizeNotInteger size => "Problem size " ++ size.shown ++ " is not an integer."
  | negativeSize numVars numClauses =>
    "Negative problem size: " ++ toString numVars ++ " variables, " ++ toString numClauses ++
      " clauses."
  | notRow => "Clauses are not lists of literals."
  | literalNotInteger clause literal =>
    "Clause " ++ toString clause ++ ": literal " ++ literal.shown ++ " is not an integer."
  | zeroLiteral clause => "Clause " ++ toString clause ++ ": literal 0 inside a clause."
  | literalOutOfRange clause literal numVars =>
    "Clause " ++ toString clause ++ ": literal " ++ toString literal ++ " out of range for " ++
      toString numVars ++ " variables."
  | emptyClause clause => "Clause " ++ toString clause ++ " is empty."
  | wrongCount expected found =>
    "Expected " ++ toString expected ++ " clauses, got " ++ toString found ++ "."
  | noRoom shortage => shortage.message
  | unwritable => Number.unwritableMessage

/-- Whether the numbers that the flaw tells of can be written. -/
def Flaw.isWritable : Flaw → Bool
  | sizeNotInteger size => size.isWritable
  | negativeSize numVars numClauses =>
    Number.isWritable numVars && Number.isWritable numClauses
  | literalNotInteger _ literal => literal.isWritable
  | literalOutOfRange _ literal numVars =>
    Number.isWritable literal && Number.isWritable numVars
  | wrongCount expected found => Number.isWritable expected && Number.isWritable found
  | _ => true

/-- The flaw, if it can be told. -/
def Flaw.told (flaw : Flaw) : Flaw :=
  if flaw.isWritable then flaw else unwritable

/-! ## Reading literals and clauses -/

/-- An integer as a literal of the given clause. -/
def readLiteral (numVars clause : Nat) (l : Int) : Except Flaw (Literal numVars) :=
  if hzero : l = 0 then .error (.zeroLiteral clause)
  else if hrange : l.natAbs ≤ numVars then .ok ⟨l, hzero, hrange⟩
  else .error (Flaw.told (.literalOutOfRange clause l numVars))

/-- A value as a literal of the given clause. -/
def readLiteralValue (numVars clause : Nat) : Value → Except Flaw (Literal numVars)
  | .int l => readLiteral numVars clause l
  | v => .error (Flaw.told (.literalNotInteger clause v))

/-- The clause with the given index, its literals read one after the other. -/
def readClause {numVars : Nat} {Item : Type} (read : Item → Except Flaw (Literal numVars))
    (allowEmpty : Bool) (index : Nat) (items : List Item) :
    Except Flaw (List (Literal numVars)) := do
  let literals ← items.mapM read
  if literals.isEmpty && !allowEmpty then .error (.emptyClause index)
  else .ok literals

/-! ## Building a formula -/

/-- The formula with the given clauses. -/
def ofLiterals {numVars : Nat} (hroom : numVars < Value.rowBound) (name : Option String)
    (clauses : List (List (Literal numVars))) : Formula where
  name := name
  numVars := numVars
  clauses := clauses.map fun clause => clause.map Subtype.val
  inRange := by
    intro clause hclause l hl
    obtain ⟨literals, -, rfl⟩ := List.mem_map.1 hclause
    obtain ⟨literal, -, rfl⟩ := List.mem_map.1 hl
    exact literal.2
  hasRoom := hroom

/-- The formula with the given clauses, provided that there are as many as expected and there is
room for the variables. -/
def ofCounted {numVars : Nat} (name : Option String) (expected : Nat)
    (clauses : List (List (Literal numVars))) : Except Flaw Formula :=
  if clauses.length = expected then
    if hroom : numVars < Value.rowBound then .ok (ofLiterals hroom name clauses)
    else .error (.noRoom (.ofVars numVars))
  else .error (Flaw.told (.wrongCount expected clauses.length))

/-- The formula with the given sizes and clauses.  An empty clause is a flaw unless it is
allowed. -/
def ofClauses (name : Option String) (numVars numClauses : Nat) (clauses : List (List Int))
    (allowEmpty : Bool) : Except Flaw Formula := do
  let read ← clauses.zipIdx.mapM fun (clause, index) =>
    readClause (readLiteral numVars index) allowEmpty index clause
  ofCounted name numClauses read

/-- The greatest variable in a list of clauses; 0 if there is none.

It stands for what a container of clauses counts as its variables.  *Assumption on the container*:
it counts 0 variables when it is empty, and a clause that is appended raises the count to the
greatest absolute value of its literals if that is greater. -/
def greatestVar (clauses : List (List Int)) : Nat :=
  clauses.flatten.foldl (fun greatest l => max greatest l.natAbs) 0

/-- The formula with the given clauses, over just enough variables. -/
def ofClauseList (name : Option String) (clauses : List (List Int)) (allowEmpty : Bool) :
    Except Flaw Formula :=
  ofClauses name (greatestVar clauses) clauses.length clauses allowEmpty

/-- A value as the number of variables or of clauses. -/
def readSize : Value → Except Flaw Int
  | .int n => .ok n
  | v => .error (Flaw.told (.sizeNotInteger v))

/-- The formula that untyped data describes. -/
def ofValues (name : Option String) (numVars numClauses clauses : Value) (allowEmpty : Bool) :
    Except Flaw Formula := do
  let vars ← readSize numVars
  let count ← readSize numClauses
  if vars < 0 ∨ count < 0 then .error (Flaw.told (.negativeSize vars count))
  else match clauses.items? with
    | none => .error .notRow
    | some rows =>
      let read ← rows.zipIdx.mapM fun (row, index) =>
        match row.items? with
        | none => .error .notRow
        | some items => readClause (readLiteralValue vars.toNat index) allowEmpty index items
      ofCounted name count.toNat read

/-- The greatest size of an item in rows of numbers, starting from a number. -/
def greatestSize? (start : Value) (rows : List Value) : Option Value :=
  rows.foldlM (fun greatest row => do
    let items ← row.items?
    items.foldlM (fun greatest item => item.abs?.map greatest.greater) greatest) start

/-- The formula with the clauses that untyped data describes, over just enough variables.  Data that
counts as false describes no clauses. -/
def ofClauseValues (name : Option String) (clauses : Value) (allowEmpty : Bool) :
    Except Flaw Formula :=
  let rows := if clauses.isTruthy then clauses.items? else some []
  match rows with
  | none => .error .notRow
  | some rows =>
    match greatestSize? (.int 0) rows with
    | none => .error .notRow
    | some greatest => ofValues name greatest (.int rows.length) (.list rows) allowEmpty

/-! ## Text forms -/

/-- The clauses, one a line, every literal followed by a tab. -/
def tabbed (F : Formula) : String :=
  String.join (F.clauses.map fun clause =>
    String.join (clause.map fun l => toString l ++ "\t") ++ "\n")

/-- A one-line description of the formula at the given depth of search, which is negative if not
even the first list of active clauses is there. -/
def describe (F : Formula) (depth : Int) : String :=
  let name := match F.name with
    | none => "None"
    | some name => Text.quote name
  "Formula(name=" ++ name ++ ", nvar=" ++ toString F.numVars ++ ", nclauses=" ++
    toString F.numClauses ++ ", depth=" ++ toString depth ++ ")"

end Formula

end TrailSat
