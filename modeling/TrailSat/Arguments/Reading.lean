import TrailSat.Arguments.Word

/-!
# Reading command lines

The sorted words are taken from left to right, and each option changes the settings as its rule
says, so that the last of several values counts.  Short options may share a hyphen if all but the
last take no value.  Words that no option takes are strays, and lead to a complaint at the end.
-/

namespace TrailSat.Arguments

variable {Settings : Type}

/-- What a command line asks for instead of a run. -/
inductive Stop where
  | help
  | misuse (misuse : Misuse)
deriving Repr, DecidableEq

/-- An option as it is used, with what it is given if it takes a value and that is known. -/
structure Use (Settings : Type) where
  rule : Rule Settings
  given : Option (Given String) := none

/-- The options used by a short option without a value and the characters behind it, which are short
options that share its hyphen.  The first of them that takes a value gets the rest. -/
def useFlags (rules : List (Rule Settings)) (rule : Rule Settings) :
    List Char → Except Misuse (List (Use Settings))
  | [] => .ok [⟨rule, none⟩]
  | letter :: rest =>
    match ruleNamed? rules (String.ofList ['-', letter]) with
    | none => .error (.unusedValue rule.shownNames (String.ofList (letter :: rest)))
    | some next =>
      if next.takesValue then
        let given := if rest.isEmpty then none else some (Given.ofText (String.ofList rest))
        .ok [⟨rule, none⟩, ⟨next, given⟩]
      else (useFlags rules next rest).map (⟨rule, none⟩ :: ·)

/-- The options that a word uses which names an option and has a text attached. -/
def useAttached (rules : List (Rule Settings)) (rule : Rule Settings) (name text : String) :
    Except Misuse (List (Use Settings)) :=
  if rule.takesValue then .ok [⟨rule, some (Given.ofText text)⟩]
  else if beginsWith "--" name || text.isEmpty then
    .error (.unusedValue rule.shownNames text)
  else useFlags rules rule text.toList

/-- The options that an option word uses. -/
def useOption (rules : List (Rule Settings)) (rule : Rule Settings) (name : String) :
    Attached → Except Misuse (List (Use Settings))
  | .nothing => .ok [⟨rule, none⟩]
  | .assigned text => useAttached rules rule name text
  | .glued text => useAttached rules rule name text

/-- How far a command line has been read. -/
structure Progress (Settings : Type) where
  settings : Settings
  /-- The names of the options used so far. -/
  used : List (List String) := []
  /-- The words that belong to no option, the last one first. -/
  strays : List String := []

namespace Progress

/-- Sets a word aside. -/
def setAside (progress : Progress Settings) (word : String) : Progress Settings :=
  { progress with strays := word :: progress.strays }

/-- Uses an option. -/
def apply (progress : Progress Settings) (use : Use Settings) : Except Stop (Progress Settings) :=
  let changed (change : Settings → Settings) : Progress Settings :=
    { progress with
      settings := change progress.settings
      used := use.rule.names :: progress.used }
  match use.rule.effect, use.given with
  | .help, _ => .error .help
  | .flag change, _ => .ok (changed change)
  | .value read _, some (.value text) =>
    match read text with
    | .ok change => .ok (changed change)
    | .error refusal => .error (.misuse (.badValue use.rule.shownNames text refusal))
  | .value _ blank, _ => .ok (changed blank)

end Progress

/-- The last option that a word uses, if it waits for the value that the next word is. -/
def waiting? (uses : List (Use Settings)) : Option (Rule Settings) :=
  match uses.getLast? with
  | some ⟨rule, none⟩ => if rule.takesValue then some rule else none
  | _ => none

/-- Takes the words from left to right. -/
def take (rules : List (Rule Settings)) (progress : Progress Settings) :
    List (Word Settings) → Except Stop (Progress Settings)
  | [] => .ok progress
  | .plain text :: rest => take rules (progress.setAside text) rest
  | .separator :: rest => take rules (progress.setAside "--") rest
  | .unknown text :: rest => take rules (progress.setAside text) rest
  | .option rule name attached :: rest => do
    let uses ← (useOption rules rule name attached).mapError .misuse
    match waiting? uses with
    | none =>
      let progress ← uses.foldlM Progress.apply progress
      take rules progress rest
    | some waiting =>
      match rest with
      | .plain value :: rest =>
        let supplied := uses.dropLast ++ [{ rule := waiting, given := some (.value value) }]
        let progress ← supplied.foldlM Progress.apply progress
        take rules progress rest
      | _ => .error (.misuse (.noValue waiting.shownNames))

/-- The settings after all words have been taken, if nothing is missing and nothing is left. -/
def conclude (rules : List (Rule Settings)) (progress : Progress Settings) :
    Except Stop Settings :=
  let missing := rules.filter fun rule => rule.required && !progress.used.contains rule.names
  if !missing.isEmpty then .error (.misuse (.missing (missing.map Rule.shownNames)))
  else if !progress.strays.isEmpty then .error (.misuse (.unknown progress.strays.reverse))
  else .ok progress.settings

/-- The settings that a command line asks for, starting from the given ones.  Every command line
may ask for help. -/
def read (rules : List (Rule Settings)) (start : Settings) (words : List String) :
    Except Stop Settings := do
  let rules := Rule.ofHelp :: rules
  let sorted ← (sortAll rules words).mapError .misuse
  let progress ← take rules ⟨start, [], []⟩ sorted
  conclude rules progress

end TrailSat.Arguments
