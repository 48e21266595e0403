import TrailSat.Number.Integer
import TrailSat.Trace.Event

/-!
# Key traces

The *key trace* is the part of a trace that a search did not abandon.  A flip at level `k` replaces
everything that was done at level `k` and deeper, so reading the trace from the front, every flip
first drops the steps of its own level and below and then takes its place at the end.

The trace is read token by token.  Only the level of a step has to be an integer; the literal is
kept as it stands.
-/

namespace TrailSat.Trace

/-- A step of a trace text: its tag, its literal as written, and its level. -/
structure Step where
  tag : String
  literal : String
  level : Int
deriving Repr, DecidableEq

/-- Why a text is not a trace. -/
inductive StepError where
  /-- A step begins with something that is not a tag. -/
  | unknownTag (token : String)
  /-- A tag is not followed by a literal, the letter `L` and a level. -/
  | incomplete (tag : String)
  /-- A level is not an integer. -/
  | badLevel (error : Number.IntegerError)
deriving Repr, DecidableEq

/-- The words in which the error is reported. -/
def StepError.message : StepError → String
  | unknownTag token => "Unknown token '" ++ token ++ "'"
  | incomplete tag => "Expected '<lit> L <level>' after '" ++ tag ++ "'"
  | badLevel error => error.message

/-- The steps that a row of tokens spells. -/
def readSteps : List String → Except StepError (List Step)
  | [] => .ok []
  | tag :: rest =>
    if !isTag tag then .error (.unknownTag tag)
    else match rest with
      | literal :: mark :: level :: more =>
        if mark != "L" then .error (.incomplete tag)
        else match Number.readInteger level with
          | .error e => .error (.badLevel e)
          | .ok n => (readSteps more).map (⟨tag, literal, n⟩ :: ·)
      | _ => .error (.incomplete tag)

/-- The steps kept so far, in order, after one more step was read. -/
def keep (kept : List Step) (step : Step) : List Step :=
  (if step.tag == Kind.flip.tag then kept.filter (·.level < step.level) else kept) ++ [step]

/-- The steps of a trace that no later flip replaces. -/
def keySteps (steps : List Step) : List Step :=
  steps.foldl keep []

/-- The tokens of a step. -/
def Step.tokens (step : Step) : List String :=
  stepTokens step.tag step.literal (toString step.level)

/-- The key trace of a trace text. -/
def key (trace : String) : Except StepError String := do
  let steps ← readSteps (Text.words trace)
  .ok (joinTokens ((keySteps steps).flatMap Step.tokens))

end TrailSat.Trace
