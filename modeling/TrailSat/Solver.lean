import TrailSat.Search.Run

/-!
# Solvers

A solver runs searches and keeps account of them: how often it was asked, how much all its searches
did together, what they left in the trace, and the model that the last one found.  It prints a
banner before a search and a summary after it, when asked to be verbose.
-/

namespace TrailSat

open Search

/-- What a solver has done so far. -/
structure Solver where
  /-- How many searches were asked for. -/
  solves : Nat := 0
  counters : Counters := {}
  /-- The recorded events, the oldest first. -/
  events : List Trace.Event := []
  /-- The values found by the last search; empty unless it succeeded. -/
  model : List (Option Bool) := []
deriving Repr, DecidableEq

namespace Solver

/-- The text of the trace that all searches left. -/
def trace (solver : Solver) : String :=
  Trace.text solver.events

variable {σ : Type} [Board σ]

/-- Where a search of this solver begins. -/
def start (solver : Solver) (s : σ) : Position σ :=
  Position.start s solver.counters

/-- Takes over what a search did. -/
def absorb (solver : Solver) (p : Position σ) : Solver :=
  { solver with
    counters := p.counters
    events := solver.events ++ p.events.reverse }

/-- Counts a request to search and forgets the former model. -/
def begin (solver : Solver) : Solver :=
  { solver with solves := solver.solves + 1, model := [] }

/-- Keeps the model if the search found one. -/
def conclude (solver : Solver) (s : σ) : Except AssignError Verdict → Solver
  | .ok .sat => { solver with model := Board.entries s }
  | _ => solver

/-- What a search leads to. -/
structure Outcome (σ : Type) where
  solver : Solver
  state : σ
  result : Except AssignError Verdict

/-- What a search that has ended at a position leads to. -/
def finish (solver : Solver) (ended : Position σ × Except AssignError Verdict) : Outcome σ where
  solver := (solver.absorb ended.1).conclude ended.1.state ended.2
  state := ended.1.state
  result := ended.2

/-- Searches on the given board. -/
def solve (F : Formula) (settings : Settings) (s : σ) (solver : Solver) : Outcome σ :=
  solver.begin.finish (run F settings (solver.begin.start s))

/-! ## Printed texts -/

/-- A number in a field of the given width, to the right. -/
def padLeft (width n : Nat) : String :=
  let digits := toString n
  String.ofList (List.replicate (width - digits.length) ' ') ++ digits

/-- The rule under a printed block. -/
def rule : String :=
  String.ofList (List.replicate 79 '=') ++ "\n"

/-- The sizes of the formula, printed before a search. -/
def banner (F : Formula) : String :=
  let side := String.ofList (List.replicate 41 ' ') ++ "|\n"
  String.ofList (List.replicate 28 '=') ++ "[ Problem Statistics ]" ++
    String.ofList (List.replicate 29 '=') ++ "\n" ++
    "|  Number of variables:  " ++ padLeft 12 F.numVars ++ side ++
    "|  Number of clauses:    " ++ padLeft 12 F.numClauses ++ side ++ rule

/-- The counters, printed after a search. -/
def summary (counters : Counters) : String :=
  "| decisions " ++ padLeft 10 counters.decisions ++
    " | conflicts " ++ padLeft 10 counters.conflicts ++
    " | backtracks " ++ padLeft 10 counters.backtracks ++
    " | depth " ++ padLeft 6 counters.maxDepth ++ " |\n" ++ rule

end Solver

end TrailSat
