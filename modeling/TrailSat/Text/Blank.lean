/-!
# Blank characters, stripping and words

The text formats of this library separate their items by *blanks*, the characters that Unicode
calls white space.  This file holds the class itself and the two things that readers do with it:

* `strip` removes the blanks at both ends of a text;
* `words` cuts a text into its maximal runs of other characters.
-/

namespace TrailSat.Text

/-- The white space characters of Unicode. -/
def isBlank (c : Char) : Bool :=
  let n := c.toNat
  (9 ≤ n && n ≤ 13) || (28 ≤ n && n ≤ 32) || n == 0x85 || n == 0xA0 || n == 0x1680 ||
    (0x2000 ≤ n && n ≤ 0x200A) || n == 0x2028 || n == 0x2029 || n == 0x202F || n == 0x205F ||
    n == 0x3000

/-! ## Stripping -/

/-- A text without the blanks it begins with. -/
def skipBlanks (cs : List Char) : List Char :=
  cs.dropWhile isBlank

/-- A text without the blanks it ends with. -/
def skipFinalBlanks (cs : List Char) : List Char :=
  (skipBlanks cs.reverse).reverse

/-- A text without the blanks at either end. -/
def stripChars (cs : List Char) : List Char :=
  skipFinalBlanks (skipBlanks cs)

/-- A text without the blanks at either end. -/
def strip (s : String) : String :=
  String.ofList (stripChars s.toList)

/-! ## Words -/

/-- The word a text begins with: its characters up to the first blank. -/
def leadingWord (cs : List Char) : List Char :=
  cs.takeWhile (!isBlank ·)

/-- What follows the word a text begins with. -/
def afterLeadingWord (cs : List Char) : List Char :=
  cs.dropWhile (!isBlank ·)

theorem length_afterLeadingWord_lt {cs : List Char} {c : Char} {rest : List Char}
    (hskip : skipBlanks cs = c :: rest) : (afterLeadingWord rest).length < cs.length := by
  have hcs : (skipBlanks cs).length ≤ cs.length :=
    (List.dropWhile_suffix _).length_le
  have hrest : (afterLeadingWord rest).length ≤ rest.length :=
    (List.dropWhile_suffix _).length_le
  rw [hskip, List.length_cons] at hcs
  omega

/-- The words of a text: blanks are skipped, and every other run of characters is one word.  The
first character of a word is split off by hand, so that each step visibly shortens the text. -/
def wordsOfChars (cs : List Char) : List (List Char) :=
  match h : skipBlanks cs with
  | [] => []
  | c :: rest =>
    have := length_afterLeadingWord_lt h
    (c :: leadingWord rest) :: wordsOfChars (afterLeadingWord rest)
termination_by cs.length

/-- The words of a text. -/
def words (s : String) : List String :=
  (wordsOfChars s.toList).map String.ofList

end TrailSat.Text
