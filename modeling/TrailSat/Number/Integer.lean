import TrailSat.Text.Blank
import TrailSat.Text.Digit
import TrailSat.Text.Quoted

/-!
# Reading integers

An integer is read from an optional sign and decimal digits of any script.  Single underscores may
stand between digits, and blanks may stand around the whole.  A text that is not of this form is
`malformed`; one whose leading run of digits is longer than `maxDigits` is `tooLong`, whatever
follows the run.

The blanks here are those of `Text.isBlank` without the four separator controls 28 to 31.

An integer with more than `maxDigits` digits is not written either.
-/

namespace TrailSat.Number

open Text

/-- Why a text is not read as an integer. -/
inductive IntegerError where
  /-- The text is not an integer. -/
  | malformed (text : String)
  /-- The text begins with more digits than are read. -/
  | tooLong (digits : Nat)
deriving Repr, DecidableEq

/-- The greatest number of digits that are read or written. -/
def maxDigits : Nat := 4300

/-- Whether an integer has few enough digits to be written. -/
def isWritable (n : Int) : Bool :=
  n.natAbs < Nat.pow 10 maxDigits

/-- The words in which it is reported that an integer has too many digits to be written. -/
def unwritableMessage : String :=
  "Exceeds the limit (" ++ toString maxDigits ++
    " digits) for integer string conversion; use sys.set_int_max_str_digits() to increase the limit"

/-- How much of a quoted text an error message shows. -/
def shownLength : Nat := 200

/-- The words in which the error is reported. -/
def IntegerError.message : IntegerError → String
  | .malformed text =>
    "invalid literal for int() with base 10: " ++
      String.ofList ((quote text).toList.take shownLength)
  | .tooLong digits =>
    "Exceeds the limit (" ++ toString maxDigits ++
      " digits) for integer string conversion: value has " ++ toString digits ++
      " digits; use sys.set_int_max_str_digits() to increase the limit"

/-- The blanks that may surround a number. -/
def isMargin (c : Char) : Bool :=
  isBlank c && !(28 ≤ c.toNat && c.toNat ≤ 31)

/-- The number that a row of digits denotes; other characters are passed over. -/
def ofDigits (cs : List Char) : Nat :=
  (cs.filterMap digit?).foldl (fun value d => 10 * value + d) 0

/-- Whether underscores stand only singly and only between other characters, and there is at least
one other character.  `afterDigit` tells whether such a character has just been passed. -/
def isGrouped (afterDigit : Bool) : List Char → Bool
  | [] => afterDigit
  | c :: rest => if c == '_' then afterDigit && isGrouped false rest else isGrouped true rest

/-- Splits off a sign; `true` stands for minus. -/
def splitSign : List Char → Bool × List Char
  | '-' :: rest => (true, rest)
  | '+' :: rest => (false, rest)
  | cs => (false, cs)

/-- The size of the number that an unsigned text denotes, or `none` if it is malformed. -/
def magnitude? (cs : List Char) : Option (Except Nat Nat) :=
  let run := cs.takeWhile fun c => isDigit c || c == '_'
  let rest := cs.dropWhile fun c => isDigit c || c == '_'
  let digits := run.filter (· != '_')
  if !isGrouped false run then none
  else if maxDigits < digits.length then some (.error digits.length)
  else if rest.all isMargin then some (.ok (ofDigits digits))
  else none

/-- The integer that a text denotes. -/
def readInteger (s : String) : Except IntegerError Int :=
  let (negative, body) := splitSign (s.toList.dropWhile isMargin)
  match magnitude? body with
  | none => .error (.malformed s)
  | some (.error digits) => .error (.tooLong digits)
  | some (.ok n) => .ok (if negative then -(n : Int) else n)

end TrailSat.Number
