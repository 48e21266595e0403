import TrailSat.Number.Integer
import TrailSat.Number.Real
import TrailSat.Value.Basic

/-!
# Rules for command lines

A command line sets the fields of some settings.  A `Rule` says under which names an option goes
and what it does: it asks for help, it changes the settings by itself, or it changes them by a value
that is read from a text.

Names begin with one hyphen and have one letter, or begin with two hyphens.

Two hyphens in the place of a value separate words and are no value.  An option that is given in
this way is *blank*, which no reader of values refuses; whoever uses the settings has to.
-/

namespace TrailSat.Arguments

/-! ## Values -/

/-- What an option is given. -/
inductive Given (Kind : Type) where
  | value (v : Kind)
  /-- No value, although the option was named. -/
  | blank
deriving Repr, DecidableEq

namespace Given

/-- The value, if there is one. -/
def value? {Kind : Type} : Given Kind → Option Kind
  | value v => some v
  | blank => none

/-- What an option is given as a piece of untyped data; an empty list stands for no value. -/
def toValue {Kind : Type} (ofKind : Kind → Value) : Given Kind → Value
  | value v => ofKind v
  | blank => .list []

/-- What a text gives in the place of a value. -/
def ofText (s : String) : Given String :=
  if s == "--" then blank else value s

end Given

/-- Why a text is refused as the value of an option. -/
inductive Refusal where
  /-- It is not a value of the kind that goes by the given name. -/
  | notOfKind (kind : String)
  /-- It is not one of the texts to choose from. -/
  | notAmong (choices : List String)
deriving Repr, DecidableEq

/-- Takes any text. -/
def readText (s : String) : Except Refusal String :=
  .ok s

/-- Reads an integer. -/
def readInt (s : String) : Except Refusal Int :=
  (Number.readInteger s).mapError fun _ => .notOfKind "int"

/-- Reads a double. -/
def readDouble (s : String) : Except Refusal Float :=
  match Number.readReal? s with
  | some x => .ok x
  | none => .error (.notOfKind "float")

/-- Reads one of a few texts, each of which stands for something. -/
def readChoice {Choice : Type} (choices : List (String × Choice)) (s : String) :
    Except Refusal Choice :=
  match choices.lookup s with
  | some choice => .ok choice
  | none => .error (.notAmong (choices.map (·.1)))

/-! ## Rules -/

/-- What an option does. -/
inductive Effect (Settings : Type) where
  /-- It asks for help. -/
  | help
  /-- It changes the settings. -/
  | flag (change : Settings → Settings)
  /-- It takes a value, which changes the settings. -/
  | value (read : String → Except Refusal (Settings → Settings)) (blank : Settings → Settings)

/-- An option and what it is for. -/
structure Rule (Settings : Type) where
  names : List String
  about : String
  effect : Effect Settings
  /-- Whether a command line without the option is refused. -/
  required : Bool := false

namespace Rule

variable {Settings : Type}

/-- Whether the option takes a value. -/
def takesValue (rule : Rule Settings) : Bool :=
  match rule.effect with
  | .value _ _ => true
  | _ => false

/-- The names of the option as messages show them. -/
def shownNames (rule : Rule Settings) : String :=
  "/".intercalate rule.names

/-- An option that changes the settings by itself. -/
def ofFlag (name about : String) (change : Settings → Settings) : Rule Settings :=
  ⟨[name], about, .flag change, false⟩

/-- An option that takes a value. -/
def ofValue {Kind : Type} (names : List String) (about : String)
    (read : String → Except Refusal Kind) (change : Given Kind → Settings → Settings) :
    Rule Settings :=
  ⟨names, about, .value (fun s => (read s).map fun v => change (.value v)) (change .blank), false⟩

/-- The same option, without which a command line is refused. -/
def always (rule : Rule Settings) : Rule Settings :=
  { rule with required := true }

/-- The option that asks for help. -/
def ofHelp : Rule Settings :=
  ⟨["-h", "--help"], "Show this list.", .help, false⟩

end Rule

/-- The list of options that help consists of. -/
def helpText {Settings : Type} (rules : List (Rule Settings)) : String :=
  String.join (rules.map fun rule => ", ".intercalate rule.names ++ "\n    " ++ rule.about ++ "\n")

/-! ## Misuse -/

/-- What is wrong with a command line. -/
inductive Misuse where
  /-- A shortened name could be the name of several options. -/
  | ambiguous (word : String) (candidates : List String)
  /-- An option lacks its value. -/
  | noValue (names : String)
  /-- An option that takes no value was given one. -/
  | unusedValue (names value : String)
  /-- The value of an option was refused. -/
  | badValue (names value : String) (refusal : Refusal)
  /-- Options that are required were not given. -/
  | missing (options : List String)
  /-- An option was not given although the rest of the command line calls for it. -/
  | neededFor (option condition : String)
  /-- Words that belong to no option were given. -/
  | unknown (words : List String)
deriving Repr, DecidableEq

/-- The words in which the refusal of a value is reported. -/
def Refusal.message (value : String) : Refusal → String
  | notOfKind kind => "invalid " ++ kind ++ " value: " ++ Text.quote value
  | notAmong choices =>
    "invalid choice: " ++ Text.quote value ++ " (choose from " ++
      ", ".intercalate (choices.map Text.quote) ++ ")"

/-- Reports something about an option. -/
def Misuse.ofOption (names report : String) : String :=
  "argument " ++ names ++ ": " ++ report

/-- The words in which the misuse is reported. -/
def Misuse.message : Misuse → String
  | ambiguous word candidates =>
    "ambiguous option: " ++ word ++ " could match " ++ ", ".intercalate candidates
  | noValue names => ofOption names "expected one argument"
  | unusedValue names value => ofOption names ("ignored explicit argument " ++ Text.quote value)
  | badValue names value refusal => ofOption names (refusal.message value)
  | missing options =>
    "the following arguments are required: " ++ ", ".intercalate options
  | neededFor option condition => option ++ " is required when " ++ condition
  | unknown words => "unrecognized arguments: " ++ " ".intercalate words

end TrailSat.Arguments
