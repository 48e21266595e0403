import TrailSat.Number.Integer
import TrailSat.Number.Real
import TrailSat.Value.Basic

/-!
# Values in messages

`shown` is how a value stands in a message: texts are quoted, lists and records are bracketed.
`plain` is the same except that a text on its own stands unquoted.  Only values that are `isWritable`
are given in one of these forms: the others hold an integer with too many digits.
-/

namespace TrailSat.Value

mutual

/-- The value as it stands in a message, texts quoted. -/
def shown : Value → String
  | null => "None"
  | bool true => "True"
  | bool false => "False"
  | int n => toString n
  | real x => Number.realText x
  | text s => Text.quote s
  | list items => "[" ++ ", ".intercalate (shownItems items) ++ "]"
  | record fields => "\x7b" ++ ", ".intercalate (shownFields fields) ++ "\x7d"

/-- The items of a list, each as it stands in a message. -/
def shownItems : List Value → List String
  | [] => []
  | item :: rest => shown item :: shownItems rest

/-- The fields of a record, each as it stands in a message. -/
def shownFields : List (String × Value) → List String
  | [] => []
  | (name, item) :: rest => (Text.quote name ++ ": " ++ shown item) :: shownFields rest

end

mutual

/-- Whether every integer in the value has few enough digits to be written. -/
def isWritable : Value → Bool
  | int n => Number.isWritable n
  | list items => areWritable items
  | record fields => haveWritable fields
  | _ => true

/-- Whether the items of a list can be written. -/
def areWritable : List Value → Bool
  | [] => true
  | item :: rest => isWritable item && areWritable rest

/-- Whether the fields of a record can be written. -/
def haveWritable : List (String × Value) → Bool
  | [] => true
  | (_, item) :: rest => isWritable item && haveWritable rest

end

/-- The value as it stands in running text: a text is given as it is. -/
def plain : Value → String
  | text s => s
  | v => v.shown

end TrailSat.Value
