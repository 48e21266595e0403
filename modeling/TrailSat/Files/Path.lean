/-!
# Paths

A path is a row of components between slashes.  Empty components and `.` stand for the folder they
are in, `..` for the folder above it.  A path that begins with a slash starts at the root.
-/

namespace TrailSat.Files

/-- The components of a text between slashes, empty ones included. -/
def splitSlashes (cs : List Char) : List (List Char) :=
  cs.foldr (fun c parts => match parts with
    | [] => if c == '/' then [[], []] else [[c]]
    | part :: rest => if c == '/' then [] :: part :: rest else (c :: part) :: rest) [[]]

/-- The components of a path that are not empty. -/
def components (path : String) : List String :=
  ((splitSlashes path.toList).filter (!·.isEmpty)).map String.ofList

/-- The components of a path that lead somewhere. -/
def properComponents (path : String) : List String :=
  (components path).filter (· != ".")

/-- Whether a path starts at the root. -/
def isAbsolute (path : String) : Bool :=
  path.toList.head? == some '/'

/-- Whether a path ends in a slash, as the path of a folder may. -/
def endsInSlash (path : String) : Bool :=
  path.toList.getLast? == some '/'

/-- Whether a text holds the null character. -/
def hasNull (s : String) : Bool :=
  s.toList.contains (Char.ofNat 0)

/-- What an absolute path begins with: one slash, or exactly two, which may mean something else to
a system. -/
def rootSlashes (path : String) : String :=
  match path.toList with
  | '/' :: '/' :: '/' :: _ => "/"
  | '/' :: '/' :: _ => "//"
  | '/' :: _ => "/"
  | _ => ""

/-- A path in its shortest form that still names the same steps: no `.`, no slash too many. -/
def tidy (path : String) : String :=
  let form := rootSlashes path ++ "/".intercalate (properComponents path)
  if form.isEmpty then "." else form

/-- The last component of a path. -/
def baseName (path : String) : String :=
  (properComponents path).getLast?.getD ""

/-- The path of a name in a folder. -/
def joinPath (folder name : String) : String :=
  if folder.isEmpty || endsInSlash folder then folder ++ name else folder ++ "/" ++ name

/-- The path of a name in a folder, in tidy form. -/
def tidyJoin (folder name : String) : String :=
  let front := tidy folder
  if front == "." then name else joinPath front name

/-- Whether a name ends in the given way. -/
def endsWith (name ending : String) : Bool :=
  ending.toList.isSuffixOf name.toList

end TrailSat.Files
