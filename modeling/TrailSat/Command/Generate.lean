import TrailSat.Command.Report
import TrailSat.Generate.Bucket

/-!
# Writing a bucket of problems

The command draws the problems of one bucket and writes them to a file of flat text in a folder,
which is made if it is missing.  When a problem cannot be drawn, the file keeps those before it.
-/

namespace TrailSat.Command.Generate

open Arguments Files TrailSat.Generate

variable {Gen : Type} [Generator Gen]

/-! ## Settings -/

/-- Which bucket is to be written, and where. -/
structure Request where
  varsMin : Given Int := .blank
  varsMax : Given Int := .blank
  samples : Given Int := .blank
  ratioMin : Given Float := .value 4.1
  ratioMax : Given Float := .value 4.4
  clauseSize : Given Int := .value 3
  planted : Bool := true
  /-- The seed of the generator. -/
  seed : Given Int := .value 42
  /-- The folder of the file. -/
  folder : Given String := .blank

/-- Takes any text as the path of a folder. -/
def readFolder (s : String) : Except Refusal String :=
  (readText s).map tidy

/-- What is ordered for the bucket. -/
def Request.order (request : Request) : Order where
  varsMin := request.varsMin.toValue .int
  varsMax := request.varsMax.toValue .int
  samples := request.samples.toValue .int
  ratioMin := request.ratioMin.toValue .real
  ratioMax := request.ratioMax.toValue .real
  clauseSize := request.clauseSize.toValue .int
  planted := request.planted

/-- The options of the command. -/
def rules : List (Rule Request) :=
  [ (Rule.ofValue ["--vars-min"] "The least number of variables."
      readInt fun n request => { request with varsMin := n }).always,
    (Rule.ofValue ["--vars-max"] "The greatest number of variables."
      readInt fun n request => { request with varsMax := n }).always,
    (Rule.ofValue ["--samples"] "The number of problems."
      readInt fun n request => { request with samples := n }).always,
    Rule.ofValue ["--ratio-min"] "The least ratio of clauses to variables."
      readDouble fun x request => { request with ratioMin := x },
    Rule.ofValue ["--ratio-max"] "The greatest ratio of clauses to variables."
      readDouble fun x request => { request with ratioMax := x },
    Rule.ofValue ["--clause-size"] "The number of literals in a clause."
      readInt fun n request => { request with clauseSize := n },
    Rule.ofFlag "--random" "Draw uniform problems instead of planted ones."
      fun request => { request with planted := false },
    Rule.ofValue ["--seed"] "The seed of the random words."
      readInt fun n request => { request with seed := n },
    (Rule.ofValue ["--out-dir"] "The folder of the file."
      readFolder fun path request => { request with folder := path }).always ]

/-- The request that a command line makes. -/
def readRequest (words : List String) : Except Stop Request :=
  Arguments.read rules {} words

/-! ## Writing -/

/-- Makes a folder and an empty file at a path in it.  If that fails, it is told what has been made
until then; a file without a name is not made. -/
def openBucket (tree : Tree) (folder path : String) (named : Bool) : Except (Tree × Failure) Tree :=
  match tree.ensureFolders folder with
  | .error e => .error (tree, .write e)
  | .ok made =>
    if named then (made.writeFile path ByteArray.empty).mapError fun e => (made, .write e)
    else .error (made, .sampling .unwritable)

/-- Draws problems into a file in a folder. -/
def writeDrawn (tree : Tree) (folder path : String) (named : Bool)
    (draw : StateM Gen Bucket.Drawn) : StateM Gen Report := do
  match openBucket tree folder path named with
  | .error (made, failure) => return Report.ofFailure made failure
  | .ok opened =>
    let drawn ← draw
    match opened.writeFile path (Bucket.text drawn.problems).toUTF8 with
    | .error e => return Report.ofFailure opened (.write e)
    | .ok written =>
      return { tree := written, ending := match drawn.failure with
        | none => .returned
        | some e => .failed (.sampling e) }

/-- The path of a bucket's file in a folder. -/
def bucketPath (folder : String) (bucket : Bucket) : String :=
  tidyJoin folder bucket.fileName

/-- Draws the problems of a bucket into its file. -/
def writeBucket (tree : Tree) (folder : String) (bucket : Bucket) : StateM Gen Report :=
  writeDrawn tree folder (bucketPath folder bucket) bucket.hasFileName bucket.draw

/-- The path of the file for an order in a folder. -/
def orderPath (folder : String) (order : Order) : String :=
  tidyJoin folder order.fileName

/-- Draws the problems that were ordered into their file. -/
def writeOrder (tree : Tree) (folder : String) (order : Order) : StateM Gen Report :=
  writeDrawn tree folder (orderPath folder order) order.hasFileName order.draw

/-! ## The command -/

/-- Does what a request asks for. -/
def respond (request : Request) (tree : Tree) : StateM Gen Report := do
  match request.folder with
  | .blank => return Report.ofFailure tree (.blank "--out-dir")
  | .value folder =>
    let written ← writeOrder tree folder request.order
    match written.ending with
    | .returned =>
      return { written with out := "Wrote " ++ orderPath folder request.order ++ "\n" }
    | _ => return written

/-- The whole command, with the generator that belongs to each seed; a blank seed is like 0. -/
def report (program : String) (generatorOf : Int → Gen) (words : List String) (tree : Tree) :
    Report :=
  match readRequest words with
  | .error stop => Report.ofStop program rules tree stop
  | .ok request => (respond request tree (generatorOf (request.seed.value?.getD 0))).1

end TrailSat.Command.Generate
