import TrailSat.Arguments.Reading
import TrailSat.Files.Source
import TrailSat.Generate.Generator
import TrailSat.Search.Budget

/-!
# Reports of commands

A command is given words, files, and what else it depends on.  Its `Report` holds all that comes of
it: what is printed, the files as they are afterwards, and how the command ended.

A command that was misused ends with the exit status 2 and a line that says why.
-/

namespace TrailSat.Command

/-- What a command gives up on. -/
inductive Failure where
  /-- A file could not be read. -/
  | load (error : Files.LoadError)
  /-- A file could not be written. -/
  | write (error : Files.FileError)
  /-- A problem could not be drawn. -/
  | sampling (error : Generate.SamplingError)
  /-- A search went wrong. -/
  | search (fault : Search.Fault)
  /-- An option that was given blank has to have a value. -/
  | blank (option : String)
deriving Repr

/-- How a command ends. -/
inductive Ending where
  /-- With a result. -/
  | returned
  /-- With an exit status. -/
  | exit (status : Nat)
  /-- It gave up. -/
  | failed (failure : Failure)
deriving Repr

/-- What comes of a command. -/
structure Report where
  /-- What is printed. -/
  out : String := ""
  /-- What is printed as an error. -/
  err : String := ""
  /-- The files afterwards. -/
  tree : Files.Tree
  ending : Ending

/-- The exit status of a command that was misused. -/
def misuseStatus : Nat := 2

/-- The report of a command that was misused. -/
def Report.ofMisuse (program : String) (tree : Files.Tree) (misuse : Arguments.Misuse) :
    Report where
  err := program ++ ": error: " ++ misuse.message ++ "\n"
  tree := tree
  ending := .exit misuseStatus

/-- The report of a command that did not run. -/
def Report.ofStop {Settings : Type} (program : String) (rules : List (Arguments.Rule Settings))
    (tree : Files.Tree) : Arguments.Stop → Report
  | .help =>
    { out := Arguments.helpText (Arguments.Rule.ofHelp :: rules), tree := tree, ending := .exit 0 }
  | .misuse misuse => Report.ofMisuse program tree misuse

/-- The report of a command that gave up. -/
def Report.ofFailure (tree : Files.Tree) (failure : Failure) : Report where
  tree := tree
  ending := .failed failure

/-! ## Words for failures -/

/-- The words in which a failure is reported. -/
def Failure.message : Failure → String
  | load (.file error) => error.message
  | load (.damaged .notText) => "the file is not text in UTF-8"
  | load (.damaged (.compressed fault)) => fault.message
  | load (.notDimacs error) => error.message
  | load (.notFlat (.badToken error)) => error.message
  | load (.notFlat (.flawed flaw)) => flaw.message
  | write error => error.message
  | sampling error => error.message
  | search fault => fault.message
  | blank option => Arguments.Misuse.ofOption option "a value is needed"

/-- The status with which a command that gave up exits. -/
def Failure.exitStatus : Nat := 1

end TrailSat.Command
