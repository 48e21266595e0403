import TrailSat.Command.Batch
import TrailSat.Command.Generate
import TrailSat.Command.Solve
import TrailSat.Generate.Seed

/-!
# The program

Three commands: `solve` solves a DIMACS file, `batch` solves many problems and keeps their records,
and `generate` writes a bucket of random problems.  All of them are functions from files to a
report.  Here the files that a command may look at are read from the disk, the search runs under a
real clock, and what has changed is written back.
-/

namespace TrailSat.Program

open Files Command

/-! ## The disk -/

/-- The absolute path of a place. -/
def pathOfPlace (place : Place) : String :=
  "/" ++ "/".intercalate place

/-- What the disk holds at a place. -/
def entryOnDisk? (place : Place) : IO (Option Entry) := do
  let path := (← IO.currentDir) / pathOfPlace place
  if ← path.isDir then return some .folder
  try
    return some (.file (← IO.FS.readBinFile path))
  catch _ => return none

/-- Takes a place over from the disk. -/
def takeOver (tree : Tree) (place : Place) : IO Tree := do
  match ← entryOnDisk? place with
  | some entry => return tree.put place entry
  | none => return tree

/-- The places that a path leads through. -/
def placesOn (tree : Tree) (path : String) : List Place :=
  let steps := components path
  (List.range (steps.length + 1)).map fun count =>
    tree.namedPlace ((if isAbsolute path then "/" else "") ++ "/".intercalate (steps.take count))

/-- Takes over the places that a path leads through. -/
def takeOverPath (tree : Tree) (path : String) : IO Tree :=
  (placesOn tree path).foldlM takeOver tree

/-- Takes over the DIMACS files in a folder. -/
def takeOverFolder (tree : Tree) (path : String) : IO Tree := do
  let tree ← takeOverPath tree path
  let place := tree.namedPlace path
  let folder := (← IO.currentDir) / pathOfPlace place
  if ← folder.isDir then
    let names := ((← folder.readDir).map (·.fileName)).toList
    (names.filter fun name => endsWith name ".cnf" || endsWith name ".cnf.gz").foldlM
      (fun tree name => takeOver tree (place ++ [name])) tree
  else return tree

/-- The empty tree whose home is the current folder, with the folders above it. -/
def homeTree : IO Tree := do
  let home := components (← IO.currentDir).toString
  takeOverPath { home := home } "."

/-- Writes to the disk what is new or has changed, folders first. -/
def writeBack (before after : Tree) : IO Unit := do
  for (place, entry) in after.entries.reverse do
    match entry, before.entry? place with
    | .folder, none => IO.FS.createDirAll (pathOfPlace place)
    | _, _ => pure ()
  for (place, entry) in after.entries do
    match entry, before.entry? place with
    | .file bytes, some (.file old) =>
      unless bytes.toList == old.toList do IO.FS.writeBinFile (pathOfPlace place) bytes
    | .file bytes, _ => IO.FS.writeBinFile (pathOfPlace place) bytes
    | .folder, _ => pure ()

/-! ## The clock -/

/-- The seconds since a moment. -/
def secondsSince (moment : Nat) : IO Float := do
  return Float.ofNat ((← IO.monoNanosNow) - moment) / 1000000000

/-- The megabytes of memory in use, as far as the system tells. -/
def megabytes : IO Float := do
  try
    let fields := Text.words (← IO.FS.readFile "/proc/self/statm")
    return Float.ofNat (((fields[1]?).bind String.toNat?).getD 0) * 4096 / (1024 * 1024)
  catch _ => return 0

/-- Runs a search to its end, looking at the clock before every step. -/
partial def runTimed (F : Formula) (settings : Search.Settings) (limit : Option Float)
    (started : Nat) (p : Search.Position State) :
    IO (Search.Position State × Except AssignError Verdict) := do
  let late := Search.hasExpired limit (← secondsSince started)
  match Search.step F { settings with expired := fun _ => late } p with
  | (q, .running) => runTimed F settings limit started q
  | (q, .finished verdict) => return (q, .ok verdict)
  | (q, .failed e) => return (q, .error e)

/-- Solves a formula under a clock that starts now. -/
def solveTimed (F : Formula) (settings : Search.Settings) (budgets : Search.Budgets) :
    IO (Solver.Outcome State) := do
  let solver := ({} : Solver).begin
  let limit := budgets.seconds.toOption.getD none
  let ended ← runTimed F settings limit (← IO.monoNanosNow) (solver.start (State.initial F))
  return solver.finish ended

/-! ## Commands -/

/-- Prints a report, writes what it changed, and gives the exit status. -/
def present (before : Tree) (report : Report) : IO UInt32 := do
  IO.print report.out
  IO.eprint report.err
  writeBack before report.tree
  match report.ending with
  | .returned => return 0
  | .exit status => return status.toUInt32
  | .failed failure =>
    IO.eprintln failure.message
    return Failure.exitStatus.toUInt32

/-- The command `solve`. -/
def solve (words : List String) : IO UInt32 := do
  let started ← IO.monoNanosNow
  let program := "trailsat solve"
  let tree ← homeTree
  match Solve.readRequest words with
  | .error stop => present tree (Report.ofStop program Solve.rules tree stop)
  | .ok request =>
    let tree ← takeOverPath tree (request.input.value?.getD "")
    let tree ← takeOverPath tree (request.target?.getD "")
    match Solve.load request tree with
    | .error failure => present tree (Solve.reportUnloaded tree failure)
    | .ok F =>
      match request.obstacle? with
      | some failure => present tree (Report.ofFailure tree failure)
      | none =>
        let outcome ← solveTimed F (request.settings Search.stillClock) request.budgets
        let cost : Cost := ⟨← secondsSince started, ← megabytes⟩
        present tree
          (Solve.conclude request (cost.readings outcome.solver.counters) tree F outcome)

/-- Solves a problem and gives its record. -/
def solveOne (budgets : Search.Budgets) (F : Formula) : IO (Except Failure Record) := do
  match budgets.seconds with
  | .error e => return .error (.search (.budget e))
  | .ok _ =>
    let started ← IO.monoNanosNow
    let outcome ← solveTimed F (budgets.settings Search.stillClock) budgets
    let seconds ← secondsSince started
    return Batch.recordOf F budgets (.real seconds) outcome

/-- Solves problems one after the other and gives their records. -/
def solveEach (budgets : Search.Budgets) :
    List (Except LoadError Formula) → IO (Except Failure (List Record))
  | [] => return .ok []
  | .error e :: _ => return .error (.load e)
  | .ok F :: rest => do
    match ← solveOne budgets F with
    | .error failure => return .error failure
    | .ok record => return (← solveEach budgets rest).map (record :: ·)

/-- The command `batch`. -/
def batch (words : List String) : IO UInt32 := do
  let program := "trailsat batch"
  let tree ← homeTree
  match Batch.readRequest words with
  | .error stop => present tree (Report.ofStop program Batch.rules tree stop)
  | .ok request =>
    match request.path with
    | .error misuse => present tree (Report.ofMisuse program tree misuse)
    | .ok path =>
      let tree ← takeOverFolder tree path
      let tree ← takeOverPath tree (request.savePath.value?.getD "")
      match Batch.load request.source tree path with
      | .error e => present tree (Report.ofFailure tree (.load e))
      | .ok problems =>
        match ← solveEach request.budgets problems with
        | .error failure => present tree (Report.ofFailure tree failure)
        | .ok records => present tree (Batch.save request tree records)

/-- The command `generate`. -/
def generate (words : List String) : IO UInt32 := do
  let program := "trailsat generate"
  let tree ← homeTree
  match Generate.readRequest words with
  | .error stop => present tree (Report.ofStop program Generate.rules tree stop)
  | .ok request =>
    let folder := request.folder.value?.getD "."
    let tree ← takeOverPath tree (Generate.orderPath folder request.order)
    present tree (Generate.report program TrailSat.Generate.Draws.ofSeed words tree)

end TrailSat.Program

/-- Runs the command that the first word names. -/
def main (words : List String) : IO UInt32 := do
  match words with
  | "solve" :: rest => TrailSat.Program.solve rest
  | "batch" :: rest => TrailSat.Program.batch rest
  | "generate" :: rest => TrailSat.Program.generate rest
  | _ =>
    IO.eprintln "trailsat: error: the first word must be solve, batch or generate"
    return 2
