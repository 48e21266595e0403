import TrailSat.Formula.Basic

/-!
# Writing DIMACS text

A formula is written as an optional comment with its name, a problem line with its sizes, and one
line for each clause, closed by a zero.
-/

namespace TrailSat.Dimacs

/-- Integers in a row. -/
def joinInts (numbers : List Int) : String :=
  " ".intercalate (numbers.map toString)

/-- The comment that names the formula; there is none without a name. -/
def commentLine (F : Formula) : String :=
  match F.name with
  | none => ""
  | some name => if name.isEmpty then "" else "c " ++ name ++ "\n"

/-- The line that gives the sizes of the formula. -/
def problemLine (F : Formula) : String :=
  "p cnf " ++ toString F.numVars ++ " " ++ toString F.numClauses ++ "\n"

/-- The line of one clause. -/
def clauseLine (clause : List Int) : String :=
  joinInts (clause ++ [0]) ++ "\n"

/-- The formula as DIMACS text. -/
def write (F : Formula) : String :=
  commentLine F ++ problemLine F ++ String.join (F.clauses.map clauseLine)

end TrailSat.Dimacs
