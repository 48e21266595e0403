import TrailSat.Number.Integer

/-!
# The literals in a trace text

`literals` reads the literals off a trace text without asking for well-formed steps: wherever a
`D` or a `BT` is followed by at least one blank and a signed row of digits, the row is a literal.
Text that does not fit is passed over, one character at a time.
-/

namespace TrailSat.Trace

open Text

/-- What follows a tag at the front of a text. -/
def afterTag? : List Char → Option (List Char)
  | 'D' :: rest => some rest
  | 'B' :: 'T' :: rest => some rest
  | _ => none

/-- Splits off a minus sign. -/
def splitMinus : List Char → List Char × List Char
  | '-' :: rest => (['-'], rest)
  | cs => ([], cs)

/-- The literal at the front of a text, as written, and the text behind it: a tag, blanks, and a row
of digits that may have a minus sign. -/
def splitLiteral? (cs : List Char) : Option (List Char × List Char) := do
  let rest ← afterTag? cs
  let (sign, body) := splitMinus (skipBlanks rest)
  let digits := body.takeWhile isDigit
  if rest.head?.any isBlank ∧ digits ≠ [] then
    some (sign ++ digits, body.dropWhile isDigit)
  else none

theorem length_afterTag_lt {cs rest : List Char} (h : afterTag? cs = some rest) :
    rest.length < cs.length := by
  unfold afterTag? at h
  split at h
  · cases h
    exact Nat.lt_succ_self _
  · cases h
    simp only [List.length_cons]
    omega
  · cases h

theorem length_splitMinus_le (cs : List Char) : (splitMinus cs).2.length ≤ cs.length := by
  unfold splitMinus
  split <;> simp

theorem length_splitLiteral_lt {cs literal rest : List Char}
    (h : splitLiteral? cs = some (literal, rest)) : rest.length < cs.length := by
  unfold splitLiteral? at h
  obtain ⟨behind, hbehind, h⟩ := Option.bind_eq_some_iff.1 h
  have htag := length_afterTag_lt hbehind
  have hblanks : (skipBlanks behind).length ≤ behind.length :=
    (List.dropWhile_suffix _).length_le
  have hsign := length_splitMinus_le (skipBlanks behind)
  have hdigits : ((splitMinus (skipBlanks behind)).2.dropWhile isDigit).length ≤
      (splitMinus (skipBlanks behind)).2.length :=
    (List.dropWhile_suffix _).length_le
  dsimp only at h
  split at h
  · obtain ⟨-, rfl⟩ := Prod.mk.inj (Option.some.inj h)
    omega
  · cases h

/-- The literals in a text, as written. -/
def literalTexts (cs : List Char) : List (List Char) :=
  match cs with
  | [] => []
  | c :: rest =>
    match h : splitLiteral? (c :: rest) with
    | some (literal, behind) =>
      have : behind.length < rest.length + 1 := length_splitLiteral_lt h
      literal :: literalTexts behind
    | none => literalTexts rest
termination_by cs.length

/-- The literals in a trace text, in order. -/
def literals (trace : String) : Except Number.IntegerError (List Int) :=
  (literalTexts trace.toList).mapM fun literal => Number.readInteger (String.ofList literal)

end TrailSat.Trace
