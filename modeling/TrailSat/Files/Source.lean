import TrailSat.Dimacs.Reader
import TrailSat.Files.Tree
import TrailSat.Flat
import TrailSat.Gzip.Member
import TrailSat.Text.Lines

/-!
# Reading formulas from files

A text file is a row of lines, some of which may be out of reach because the file is damaged.  The
damage shows only when a reader gets there: a reader that stops before it, at an error or at the end
mark of DIMACS text, never learns of it.

DIMACS files whose names end in `.gz` are compressed; other files are taken as they are.
-/

namespace TrailSat.Files

/-- What keeps a reader from the rest of a file. -/
inductive Damage where
  /-- The bytes are not text in UTF-8. -/
  | notText
  /-- The compressed contents cannot be restored. -/
  | compressed (fault : Gzip.Fault)
deriving Repr

/-- The lines of a file that can be read, and what is the matter with the rest, if anything. -/
structure Source where
  lines : List String
  damage : Option Damage

/-- The text in plain bytes. -/
def Source.ofBytes (bytes : ByteArray) : Source :=
  let read := Text.readLines (Text.chunks bytes.toList) true
  ⟨read.lines, if read.intact then none else some .notText⟩

/-- The text in compressed bytes. -/
def Source.ofCompressed (bytes : ByteArray) : Source :=
  let contents := Gzip.read bytes
  let read := Text.readLines contents.chunks contents.fault.isNone
  ⟨read.lines, if read.intact then contents.fault.map .compressed else some .notText⟩

/-- Why a file cannot be used. -/
inductive LoadError where
  /-- There is no such file. -/
  | file (error : FileError)
  /-- The file is damaged. -/
  | damaged (damage : Damage)
  /-- The file does not hold DIMACS text. -/
  | notDimacs (error : Dimacs.ParseError)
  /-- The file does not hold problems in flat text. -/
  | notFlat (error : Flat.ReadError)
deriving Repr

/-- The text of a DIMACS file. -/
def openDimacs (tree : Tree) (path : String) : Except FileError Source :=
  (tree.readFile path).map
    (if endsWith path ".gz" then Source.ofCompressed else Source.ofBytes)

/-- The formula that a text describes. -/
def readDimacs (options : Dimacs.Options) (name : Option String) (source : Source) :
    Except LoadError Formula :=
  match Dimacs.readLines options 0 {} source.lines with
  | .error e => .error (.notDimacs e)
  | .ok (draft, ended) =>
    match source.damage with
    | none => (Dimacs.finish options name draft).mapError .notDimacs
    | some damage =>
      if ended then (Dimacs.finish options name draft).mapError .notDimacs
      else .error (.damaged damage)

/-- The formula in a DIMACS file, which is named after the file. -/
def loadDimacs (tree : Tree) (options : Dimacs.Options) (path : String) :
    Except LoadError Formula :=
  match openDimacs tree path with
  | .error e => .error (.file e)
  | .ok source => readDimacs options (some path) source

/-- The problems in a file of flat text. -/
def loadProblems (tree : Tree) (path : String) : Except LoadError (List String) :=
  match tree.readFile path with
  | .error e => .error (.file e)
  | .ok bytes =>
    let source := Source.ofBytes bytes
    match source.damage with
    | some damage => .error (.damaged damage)
    | none => .ok (Flat.problems source.lines)

/-- The paths of the DIMACS files in a folder, in order. -/
def dimacsFiles (tree : Tree) (folder : String) : Except FileError (List String) :=
  (tree.listFolder folder).map fun names =>
    ((names.filter fun name => endsWith name ".cnf" || endsWith name ".cnf.gz").map
      (joinPath folder)).mergeSort

/-- The formulas in a file of flat text, named after the file and their number in it.  Each is read
on its own. -/
def loadFlat (tree : Tree) (path : String) :
    Except LoadError (List (Except LoadError Formula)) :=
  (loadProblems tree path).map fun problems => problems.zipIdx.map fun (problem, index) =>
    let name := baseName path ++ ":" ++ toString index
    (Flat.readFormula (some name) true problem).mapError .notFlat

/-- The formulas in the DIMACS files of a folder.  Each is read on its own. -/
def loadFolder (tree : Tree) (folder : String) :
    Except LoadError (List (Except LoadError Formula)) :=
  ((dimacsFiles tree folder).mapError .file).map (List.map (loadDimacs tree {}))

end TrailSat.Files
