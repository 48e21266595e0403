import TrailSat.Number.Fixed
import TrailSat.Search.Basic

/-!
# Statistics of a search

After a search its counters are printed with what was measured: how often a second decisions were
made and conflicts met, how much memory was used, and how long the command took.  The measured
numbers come as texts, so that all else about the statistics is settled here.
-/

namespace TrailSat.Command

/-- What running a command took. -/
structure Cost where
  seconds : Float
  megabytes : Float

/-- The texts of what was measured. -/
structure Readings where
  decisionRate : String
  conflictRate : String
  memory : String
  seconds : String
deriving Repr, DecidableEq

/-- How often a second something happened. -/
def Cost.rate (cost : Cost) (count : Nat) : Float :=
  if 0 < cost.seconds then Float.ofNat count / cost.seconds else 0

/-- The texts for a search with the given counters. -/
def Cost.readings (cost : Cost) (counters : Search.Counters) : Readings where
  decisionRate := Number.fixedText 0 (cost.rate counters.decisions)
  conflictRate := Number.fixedText 0 (cost.rate counters.conflicts)
  memory := Number.fixedText 2 cost.megabytes
  seconds := Number.fixedText 3 cost.seconds

/-- A number in a field of the given width, to the left. -/
def padRight (width n : Nat) : String :=
  let digits := toString n
  digits ++ String.ofList (List.replicate (width - digits.length) ' ')

/-- The statistics of a search. -/
def statistics (counters : Search.Counters) (readings : Readings) : String :=
  "decisions             : " ++ padRight 14 counters.decisions ++
    " (" ++ readings.decisionRate ++ " /sec)\n" ++
    "conflicts             : " ++ padRight 14 counters.conflicts ++
    " (" ++ readings.conflictRate ++ " /sec)\n" ++
    "backtracks            : " ++ toString counters.backtracks ++ "\n" ++
    "max depth             : " ++ toString counters.maxDepth ++ "\n" ++
    "Memory used           : " ++ readings.memory ++ " MB\n" ++
    "CPU time              : " ++ readings.seconds ++ " s\n"

end TrailSat.Command
