import TrailSat.Arguments.Reading
import TrailSat.Arguments.Rule
import TrailSat.Arguments.Word
import TrailSat.Command.Batch
import TrailSat.Command.Generate
import TrailSat.Command.Measure
import TrailSat.Command.Report
import TrailSat.Command.Solve
import TrailSat.Dimacs.Reader
import TrailSat.Dimacs.Writer
import TrailSat.Files.Path
import TrailSat.Files.Source
import TrailSat.Files.Tree
import TrailSat.Flat
import TrailSat.Formula.Basic
import TrailSat.Formula.Semantics
import TrailSat.Generate.Bucket
import TrailSat.Generate.Coverage
import TrailSat.Generate.Draws
import TrailSat.Generate.Generator
import TrailSat.Generate.Problem
import TrailSat.Generate.Seed
import TrailSat.Gzip.Checksum
import TrailSat.Gzip.Chunk
import TrailSat.Gzip.Inflate
import TrailSat.Gzip.Member
import TrailSat.Main
import TrailSat.Number.Binary
import TrailSat.Number.Fixed
import TrailSat.Number.Integer
import TrailSat.Number.Real
import TrailSat.Number.Shortest
import TrailSat.Proofs.Arguments.Reading
import TrailSat.Proofs.Command.Generate
import TrailSat.Proofs.Command.Loading
import TrailSat.Proofs.Command.Solve
import TrailSat.Proofs.Dimacs.BadLine
import TrailSat.Proofs.Dimacs.FirstWrong
import TrailSat.Proofs.Dimacs.Grammar
import TrailSat.Proofs.Dimacs.Kept
import TrailSat.Proofs.Dimacs.Names
import TrailSat.Proofs.Dimacs.RoundTrip
import TrailSat.Proofs.Dimacs.Values
import TrailSat.Proofs.Fallible
import TrailSat.Proofs.Files.Damage
import TrailSat.Proofs.Files.Source
import TrailSat.Proofs.Files.Tree
import TrailSat.Proofs.Flat.Agreement
import TrailSat.Proofs.Flat.Reading
import TrailSat.Proofs.Flat.Storage
import TrailSat.Proofs.Formula.Building
import TrailSat.Proofs.Generate.Bucket
import TrailSat.Proofs.Generate.Coverage
import TrailSat.Proofs.Generate.Draws
import TrailSat.Proofs.Generate.Filling
import TrailSat.Proofs.Generate.PlantedClauses
import TrailSat.Proofs.Generate.Problem
import TrailSat.Proofs.Generate.Sampler
import TrailSat.Proofs.Generate.Spare
import TrailSat.Proofs.Generate.Tally
import TrailSat.Proofs.Number.Decimal
import TrailSat.Proofs.Search.Branches
import TrailSat.Proofs.Search.Lockstep
import TrailSat.Proofs.Search.Recursive
import TrailSat.Proofs.Search.Simulation
import TrailSat.Proofs.Search.Steps
import TrailSat.Proofs.Solver.Again
import TrailSat.Proofs.Solver.ClosedBranches
import TrailSat.Proofs.Solver.Counting
import TrailSat.Proofs.Solver.Effort
import TrailSat.Proofs.Solver.FirstSolution
import TrailSat.Proofs.Solver.KeyTrace
import TrailSat.Proofs.Solver.Model
import TrailSat.Proofs.Solver.OpenBranches
import TrailSat.Proofs.Solver.OpenVariables
import TrailSat.Proofs.Solver.Opposite
import TrailSat.Proofs.Solver.Recording
import TrailSat.Proofs.Solver.Restoration
import TrailSat.Proofs.Solver.SameClauses
import TrailSat.Proofs.Solver.SameValues
import TrailSat.Proofs.Solver.Truncation
import TrailSat.Proofs.Solver.Verdict
import TrailSat.Proofs.State.Along
import TrailSat.Proofs.State.Assignment
import TrailSat.Proofs.State.Cells
import TrailSat.Proofs.State.Compaction
import TrailSat.Proofs.State.Layout
import TrailSat.Proofs.State.Pass
import TrailSat.Proofs.State.Queries
import TrailSat.Proofs.State.Reachable
import TrailSat.Proofs.State.Refusals
import TrailSat.Proofs.State.Replay
import TrailSat.Proofs.State.Truth
import TrailSat.Proofs.Text.Lines
import TrailSat.Proofs.Text.Strip
import TrailSat.Proofs.Text.Words
import TrailSat.Proofs.Trace.Lasting
import TrailSat.Proofs.Trace.Rendering
import TrailSat.Proofs.Trace.Survivors
import TrailSat.Result
import TrailSat.Search.Basic
import TrailSat.Search.Board
import TrailSat.Search.Budget
import TrailSat.Search.Run
import TrailSat.Session.Answer
import TrailSat.Session.Basic
import TrailSat.Session.Branches
import TrailSat.Solver
import TrailSat.State.Basic
import TrailSat.State.Ledger
import TrailSat.State.Requests
import TrailSat.State.Sheet
import TrailSat.Text.Blank
import TrailSat.Text.Digit
import TrailSat.Text.Lines
import TrailSat.Text.Printable
import TrailSat.Text.Quoted
import TrailSat.Trace.Event
import TrailSat.Trace.Key
import TrailSat.Trace.Literals
import TrailSat.Value.Basic
import TrailSat.Value.Json
import TrailSat.Value.Shown
