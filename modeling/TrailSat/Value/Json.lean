import TrailSat.Number.Real
import TrailSat.Value.Basic

/-!
# Values as JSON text

Values are written as JSON in ASCII alone: characters outside the printable ASCII range are given
by their UTF-16 code units.  The layout is either one line, or an item a line with a fixed
indentation; empty lists and records stay on one line in both.
-/

namespace TrailSat.Value

open Text in
/-- One UTF-16 code unit as an escape. -/
def unitEscape (unit : Nat) : List Char :=
  '\\' :: 'u' :: hexDigits 4 unit

/-- How one character is written inside a JSON text. -/
def jsonChar (c : Char) : List Char :=
  if c == '"' || c == '\\' then ['\\', c]
  else if c == '\n' then ['\\', 'n']
  else if c == '\r' then ['\\', 'r']
  else if c == '\t' then ['\\', 't']
  else if c.toNat == 8 then ['\\', 'b']
  else if c.toNat == 12 then ['\\', 'f']
  else if 32 ≤ c.toNat && c.toNat ≤ 126 then [c]
  else if c.toNat < 0x10000 then unitEscape c.toNat
  else
    let offset := c.toNat - 0x10000
    unitEscape (0xD800 + offset / 1024) ++ unitEscape (0xDC00 + offset % 1024)

/-- A text as a JSON string. -/
def jsonString (s : String) : String :=
  String.ofList ('"' :: s.toList.flatMap jsonChar ++ ['"'])

/-- A double as a JSON number; the values that JSON lacks have names. -/
def jsonReal (x : Float) : String :=
  if x.isNaN then "NaN" else if x.isInf then (if x < 0 then "-Infinity" else "Infinity")
  else Number.realText x

/-- How the items of lists and records are laid out. -/
inductive Layout where
  /-- All on one line. -/
  | line
  /-- One item a line, indented by this many blanks for each level. -/
  | indented (width : Nat)

/-- What precedes an item at the given depth. -/
def Layout.start (layout : Layout) (depth : Nat) : String :=
  match layout with
  | .line => ""
  | .indented width => "\n" ++ String.ofList (List.replicate (width * depth) ' ')

/-- What stands between two items at the given depth. -/
def Layout.between (layout : Layout) (depth : Nat) : String :=
  match layout with
  | .line => ", "
  | .indented _ => "," ++ layout.start depth

/-- A bracketed row of items, the brackets standing at the given depth. -/
def Layout.bracket (layout : Layout) (depth : Nat) (opening closing : String)
    (items : List String) : String :=
  if items.isEmpty then opening ++ closing
  else opening ++ layout.start (depth + 1) ++ (layout.between (depth + 1)).intercalate items ++
    layout.start depth ++ closing

mutual

/-- A value as JSON text that begins at the given depth. -/
def jsonAt (layout : Layout) (depth : Nat) : Value → String
  | null => "null"
  | bool true => "true"
  | bool false => "false"
  | int n => toString n
  | real x => jsonReal x
  | text s => jsonString s
  | list items => layout.bracket depth "[" "]" (jsonItems layout (depth + 1) items)
  | record fields => layout.bracket depth "\x7b" "\x7d" (jsonFields layout (depth + 1) fields)

/-- The items of a list as JSON texts. -/
def jsonItems (layout : Layout) (depth : Nat) : List Value → List String
  | [] => []
  | item :: rest => jsonAt layout depth item :: jsonItems layout depth rest

/-- The fields of a record as JSON texts. -/
def jsonFields (layout : Layout) (depth : Nat) : List (String × Value) → List String
  | [] => []
  | (name, item) :: rest =>
    (jsonString name ++ ": " ++ jsonAt layout depth item) :: jsonFields layout depth rest

end

/-- A value as JSON text. -/
def json (layout : Layout) (v : Value) : String :=
  jsonAt layout 0 v

/-! ## Records built field by field -/

/-- Sets a field of a record: a known field keeps its place and takes the new value, a new one
goes to the end. -/
def setField (fields : List (String × Value)) (name : String) (v : Value) :
    List (String × Value) :=
  if fields.any (·.1 == name) then
    fields.map fun field => if field.1 == name then (name, v) else field
  else fields ++ [(name, v)]

/-- The record with the given fields, set one after the other. -/
def ofFields (fields : List (String × Value)) : Value :=
  record (fields.foldl (fun known field => setField known field.1 field.2) [])

end TrailSat.Value
