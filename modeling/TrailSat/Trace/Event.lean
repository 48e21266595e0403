import TrailSat.Value.Shown

/-!
# Traces of a search

A search leaves a trace of what it did to its branches: a *decision* opens a branch with a literal,
a *flip* replaces the literal of the newest open branch by its opposite.  Every event names its
literal and the level of its branch, counted from 1.

As text an event is its tag, `D` or `BT`, the literal, the letter `L` and the level, and a trace is
its events on one line.  `Entry` is the textual side of an event, where the tag may be any text;
entries with an unknown tag leave no text.
-/

namespace TrailSat.Trace

/-- What happened to a branch. -/
inductive Kind where
  /-- The branch was opened. -/
  | decision
  /-- The branch's literal was replaced by its opposite. -/
  | flip
deriving Repr, DecidableEq

/-- The tag that stands for an event in a trace text. -/
def Kind.tag : Kind → String
  | decision => "D"
  | flip => "BT"

/-- One event of a search. -/
structure Event where
  kind : Kind
  literal : Int
  level : Nat
deriving Repr, DecidableEq

/-- An event as data for a trace text. -/
structure Entry where
  tag : String
  literal : Int
  level : Int
deriving Repr, DecidableEq

/-- The textual side of an event. -/
def Event.entry (e : Event) : Entry :=
  ⟨e.kind.tag, e.literal, e.level⟩

/-- Whether a text is the tag of an event. -/
def isTag (tag : String) : Bool :=
  tag == Kind.decision.tag || tag == Kind.flip.tag

/-- The four tokens of an event. -/
def stepTokens (tag literal level : String) : List String :=
  [tag, literal, "L", level]

/-- The tokens of an entry; there are none if its tag is unknown. -/
def Entry.tokens (e : Entry) : List String :=
  if isTag e.tag then stepTokens e.tag (toString e.literal) (toString e.level) else []

/-- Tokens on one line. -/
def joinTokens (tokens : List String) : String :=
  " ".intercalate tokens

/-- The text of a trace. -/
def render (entries : List Entry) : String :=
  joinTokens (entries.flatMap Entry.tokens)

/-- The text of the trace that a search left. -/
def text (events : List Event) : String :=
  render (events.map Event.entry)

/-! ## Untyped events -/

/-- Why untyped data is not a list of events. -/
inductive EventError where
  /-- The data or one of its events is not a row of items. -/
  | notRow
  /-- An event has more or fewer than three items. -/
  | wrongLength (found : Nat)
  /-- A number in an event has too many digits to be written. -/
  | unwritable
deriving Repr

/-- The words in which the error is reported. -/
def EventError.message : EventError → String
  | notRow => "events are not rows of items"
  | wrongLength found =>
    if found < 3 then
      "not enough values to unpack (expected 3, got " ++ toString found ++ ")"
    else "too many values to unpack (expected 3)"
  | unwritable => Number.unwritableMessage

/-- The tokens of one untyped event: a tag, a literal and a level of whatever type. -/
def tokensOfValue (event : Value) : Except EventError (List String) :=
  match event.items? with
  | none => .error .notRow
  | some [.text tag, literal, level] =>
    if !isTag tag then .ok []
    else if literal.isWritable && level.isWritable then
      .ok (stepTokens tag literal.plain level.plain)
    else .error .unwritable
  | some [_, _, _] => .ok []
  | some items => .error (.wrongLength items.length)

/-- The trace text of untyped events. -/
def renderValue (events : Value) : Except EventError String :=
  match events.items? with
  | none => .error .notRow
  | some items => do
    let tokens ← items.mapM tokensOfValue
    .ok (joinTokens tokens.flatten)

end TrailSat.Trace
