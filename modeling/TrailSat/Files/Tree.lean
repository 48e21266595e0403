import TrailSat.Files.Path
import TrailSat.Text.Quoted

/-!
# Trees of files

A `Tree` is a file system held as a value: folders and files under the places where they are, and a
home folder at which relative paths start.  The operations fail the way an operating system does,
and name the path that was asked for.
-/

namespace TrailSat.Files

/-! ## Failures -/

/-- What can be wrong with the place a path leads to. -/
inductive Trouble where
  | notFound
  | alreadyThere
  | notFolder
  | isFolder
  /-- The path, or a name on it, has more bytes than the system takes. -/
  | nameTooLong
deriving Repr, DecidableEq

/-- Why a path cannot be used. -/
inductive FileError where
  /-- The system refuses it. -/
  | refused (trouble : Trouble) (path : String)
  /-- It holds a null character, with which it cannot be handed to the system. -/
  | nullCharacter
deriving Repr, DecidableEq

/-- The system's number for a trouble. -/
def Trouble.number : Trouble → Nat
  | notFound => 2
  | alreadyThere => 17
  | notFolder => 20
  | isFolder => 21
  | nameTooLong => 36

/-- The system's words for a trouble. -/
def Trouble.words : Trouble → String
  | notFound => "No such file or directory"
  | alreadyThere => "File exists"
  | notFolder => "Not a directory"
  | isFolder => "Is a directory"
  | nameTooLong => "File name too long"

/-- The words in which the error is reported. -/
def FileError.message : FileError → String
  | refused trouble path =>
    "[Errno " ++ toString trouble.number ++ "] " ++ trouble.words ++ ": " ++ Text.quote path
  | nullCharacter => "embedded null byte"

/-- A name with this many bytes is too long. -/
def nameLimit : Nat := 256

/-- A path with this many bytes is too long. -/
def pathLimit : Nat := 4096

/-! ## Trees -/

/-- What is found at a place. -/
inductive Entry where
  | folder
  | file (bytes : ByteArray)

/-- Whether an entry is a folder. -/
def Entry.isFolder : Entry → Bool
  | folder => true
  | file _ => false

/-- A place in a tree: the components that lead there from the root. -/
abbrev Place : Type :=
  List String

/-- Folders and files. -/
structure Tree where
  /-- The entries other than the root folder. -/
  entries : List (Place × Entry) := []
  /-- Where relative paths start. -/
  home : Place := []

namespace Tree

/-- The entry at a place. -/
def entry? (tree : Tree) (place : Place) : Option Entry :=
  if place.isEmpty then some .folder else tree.entries.lookup place

/-- Puts an entry at a place. -/
def put (tree : Tree) (place : Place) (entry : Entry) : Tree :=
  { tree with entries := (place, entry) :: tree.entries.filter (·.1 != place) }

/-- Takes one step on a path, which is possible only from a folder. -/
def step (tree : Tree) (place : Place) (component : String) : Except Trouble Place :=
  match tree.entry? place with
  | none => .error .notFound
  | some (.file _) => .error .notFolder
  | some .folder =>
    if component == "." then .ok place
    else if component == ".." then .ok place.dropLast
    else if nameLimit ≤ component.utf8ByteSize then .error .nameTooLong
    else .ok (place ++ [component])

/-- The place to which the given steps of a path lead. -/
def walk (tree : Tree) (path : String) (steps : List String) : Except Trouble Place :=
  if path.isEmpty then .error .notFound
  else if pathLimit ≤ path.utf8ByteSize then .error .nameTooLong
  else steps.foldlM tree.step (if isAbsolute path then [] else tree.home)

/-- The place that a path leads to.  There need not be an entry at the place itself. -/
def reach (tree : Tree) (path : String) : Except Trouble Place :=
  tree.walk path (components path)

/-- Whether there is a folder at the end of a path. -/
def hasFolder (tree : Tree) (path : String) : Bool :=
  match tree.reach path with
  | .ok place => (tree.entry? place).any Entry.isFolder
  | .error _ => false

/-- Does something with a path that can be handed to the system, and names it in a failure. -/
def onPath {Result : Type} (path : String) (result : Except Trouble Result) :
    Except FileError Result :=
  if hasNull path then .error .nullCharacter
  else result.mapError fun trouble => .refused trouble path

/-! ## Files -/

/-- The contents of a file. -/
def readFile (tree : Tree) (path : String) : Except FileError ByteArray :=
  onPath path do
    let place ← tree.reach path
    match tree.entry? place with
    | none => throw .notFound
    | some .folder => throw .isFolder
    | some (.file bytes) => if endsInSlash path then throw .notFolder else return bytes

/-- Writes a file, whether or not there was one before. -/
def writeFile (tree : Tree) (path : String) (bytes : ByteArray) : Except FileError Tree :=
  onPath path do
    let above ← tree.walk path (components path).dropLast
    match tree.entry? above with
    | none => throw .notFound
    | some (.file _) => throw .notFolder
    | some .folder =>
      if endsInSlash path then throw .isFolder
      let place ← tree.reach path
      match tree.entry? place with
      | some .folder => throw .isFolder
      | _ => return tree.put place (.file bytes)

/-! ## Folders -/

/-- The names in a folder. -/
def listFolder (tree : Tree) (path : String) : Except FileError (List String) :=
  onPath path do
    let place ← tree.reach path
    match tree.entry? place with
    | none => throw .notFound
    | some (.file _) => throw .notFolder
    | some .folder =>
      return tree.entries.filterMap fun (child, _) =>
        if child.dropLast == place && !child.isEmpty then child.getLast? else none

/-- Makes a folder. -/
def makeFolder (tree : Tree) (path : String) : Except FileError Tree :=
  onPath path do
    let place ← tree.reach path
    match tree.entry? place with
    | some _ => throw .alreadyThere
    | none => return tree.put place .folder

/-- Makes a folder unless it is there. -/
def ensureFolder (tree : Tree) (path : String) : Except FileError Tree :=
  match tree.makeFolder path with
  | .ok made => .ok made
  | .error e => if tree.hasFolder path then .ok tree else .error e

/-- The path with the given steps, which are given from last to first. -/
def pathOf (absolute : Bool) (steps : List String) : String :=
  tidy ((if absolute then "/" else "") ++ "/".intercalate steps.reverse)

/-- Makes the folder at the end of a path, and those above it as far as they are missing.  The steps
of the path are given from last to first. -/
def ensureSteps (tree : Tree) (absolute : Bool) : List String → Except FileError Tree
  | [] => tree.ensureFolder (pathOf absolute [])
  | last :: above =>
    let path := pathOf absolute (last :: above)
    match tree.makeFolder path with
    | .ok made => .ok made
    | .error (.refused .notFound _) => do
      let made ← tree.ensureSteps absolute above
      made.ensureFolder path
    | .error e => if tree.hasFolder path then .ok tree else .error e

/-- Makes the folder at the end of a path, and those above it as far as they are missing. -/
def ensureFolders (tree : Tree) (path : String) : Except FileError Tree :=
  tree.ensureSteps (isAbsolute path) (properComponents path).reverse

/-! ## The folder above a file -/

/-- The absolute path of a place. -/
def showPlace (place : Place) : String :=
  "/" ++ "/".intercalate place

/-- The place that a path names, found without looking at the tree: `..` cancels the component
before it. -/
def namedPlace (tree : Tree) (path : String) : Place :=
  (components path).foldl (fun place component =>
    if component == "." then place
    else if component == ".." then place.dropLast
    else place ++ [component]) (if isAbsolute path then [] else tree.home)

/-- Makes a folder at a place, and those above it as far as they are missing.  The place is given
from its last component to its first. -/
def ensurePlace (tree : Tree) : List String → Except FileError Tree
  | [] => .ok tree
  | last :: above => do
    let made ← if (tree.entry? above.reverse).isSome then .ok tree else tree.ensurePlace above
    made.ensureFolder (showPlace (last :: above).reverse)

/-- Makes the folder that a file is to be written to.  Of the place that the path names, only what
comes before a null character counts. -/
def ensureParent (tree : Tree) (path : String) : Except FileError Tree :=
  tree.ensurePlace ((tree.namedPlace path).dropLast.takeWhile fun name => !hasNull name).reverse

end Tree

end TrailSat.Files
