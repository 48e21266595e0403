import TrailSat.Arguments.Rule

/-!
# The words of a command line

Before anything is made of a command line, each of its words is sorted on its own.  A word that
begins with a hyphen and has another character is an option if it is a name, a name with a value
after an equals sign, the beginning of exactly one long name, or a short name with a value after it.
Otherwise it is a plain word if it looks like a negative number or holds a space, and unknown if
not.

The word `--` ends this: all words after it are plain.
-/

namespace TrailSat.Arguments

variable {Settings : Type}

/-- The value that is part of the word that names an option. -/
inductive Attached where
  | nothing
  /-- The value follows an equals sign. -/
  | assigned (value : String)
  /-- The value follows the letter of a short name. -/
  | glued (value : String)
deriving Repr, DecidableEq

/-- A word of a command line. -/
inductive Word (Settings : Type) where
  /-- A word that can be the value of an option. -/
  | plain (text : String)
  /-- The word `--`. -/
  | separator
  /-- A word that looks like an option but is none. -/
  | unknown (text : String)
  /-- An option. -/
  | option (rule : Rule Settings) (name : String) (attached : Attached)

/-- The option of the given name. -/
def ruleNamed? (rules : List (Rule Settings)) (name : String) : Option (Rule Settings) :=
  rules.find? (·.names.contains name)

/-- All names with the options that have them. -/
def namedRules (rules : List (Rule Settings)) : List (String × Rule Settings) :=
  rules.flatMap fun rule => rule.names.map (·, rule)

/-- Cuts a word at its first equals sign. -/
def cutAtEquals (word : List Char) : String × Attached :=
  (String.ofList (word.takeWhile (· != '=')),
    match word.dropWhile (· != '=') with
    | [] => .nothing
    | _ :: value => .assigned (String.ofList value))

/-- Whether a name begins in the given way. -/
def beginsWith (beginning name : String) : Bool :=
  beginning.toList.isPrefixOf name.toList

/-- The options that a word with a shortened name or a glued value may stand for. -/
def candidates (rules : List (Rule Settings)) : List Char → List (String × Rule Settings × Attached)
  | '-' :: '-' :: rest =>
    let (beginning, attached) := cutAtEquals ('-' :: '-' :: rest)
    ((namedRules rules).filter fun named => beginsWith beginning named.1).map fun (name, rule) =>
      (name, rule, attached)
  | '-' :: letter :: rest =>
    let name := String.ofList ['-', letter]
    match ruleNamed? rules name with
    | some rule => [(name, rule, .glued (String.ofList rest))]
    | none => []
  | _ => []

/-- Whether a row of characters is not empty and holds digits only. -/
def isDigits (cs : List Char) : Bool :=
  !cs.isEmpty && cs.all Text.isDigit

/-- Whether a row of characters, less a final line feed, is an unsigned number in digits, with or
without a point, behind which there are digits. -/
def isPlainNumber (cs : List Char) : Bool :=
  let body := if cs.getLast? == some '\n' then cs.dropLast else cs
  match body.dropWhile Text.isDigit with
  | [] => isDigits body
  | '.' :: decimals => isDigits decimals
  | _ => false

/-- Sorts a word that begins with a hyphen and names no option in full. -/
def sortUnnamed (rules : List (Rule Settings)) (word : String) : Except Misuse (Word Settings) :=
  match candidates rules word.toList with
  | [(name, rule, attached)] => .ok (.option rule name attached)
  | [] =>
    if isPlainNumber (word.toList.drop 1) || word.toList.contains ' ' then .ok (.plain word)
    else .ok (.unknown word)
  | several => .error (.ambiguous word (several.map (·.1)))

/-- Sorts a word. -/
def sort (rules : List (Rule Settings)) (word : String) : Except Misuse (Word Settings) :=
  match word.toList with
  | '-' :: _ :: _ =>
    let (name, attached) := cutAtEquals word.toList
    match ruleNamed? rules word, ruleNamed? rules name with
    | some rule, _ => .ok (.option rule word .nothing)
    | none, some rule => .ok (.option rule name attached)
    | none, none => sortUnnamed rules word
  | _ => .ok (.plain word)

/-- Sorts the words of a command line. -/
def sortAll (rules : List (Rule Settings)) : List String → Except Misuse (List (Word Settings))
  | [] => .ok []
  | word :: rest =>
    if word == "--" then .ok (.separator :: rest.map .plain)
    else do
      let first ← sort rules word
      let others ← sortAll rules rest
      return first :: others

end TrailSat.Arguments
