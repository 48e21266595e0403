import TrailSat.Text.Printable

/-!
# Quoted text

Messages show a piece of text between quotes.  The quotes are single ones, unless the text holds a
single quote and no double one.  Inside, the backslash and the chosen quote are escaped, line feed,
carriage return and tab have escapes of their own, and every other character that is not printable
is given by its number in the shortest of three widths.

`quoteBytes` does the same for raw bytes, where everything outside printable ASCII is given by its
number.
-/

namespace TrailSat.Text

/-- The hexadecimal digit of a number below sixteen. -/
def hexDigit (n : Nat) : Char :=
  if n < 10 then Char.ofNat (48 + n) else Char.ofNat (87 + n)

/-- The last `width` hexadecimal digits of a number. -/
def hexDigits (width n : Nat) : List Char :=
  (List.range width).reverse.map fun place => hexDigit ((n >>> (4 * place)) % 16)

/-- The quote that surrounds a text. -/
def chosenQuote (cs : List Char) : Char :=
  if cs.contains '\'' && !cs.contains '"' then '"' else '\''

/-- How one character is written between quotes. -/
def quotedChar (quote c : Char) : List Char :=
  if c == '\\' || c == quote then ['\\', c]
  else if c == '\n' then ['\\', 'n']
  else if c == '\r' then ['\\', 'r']
  else if c == '\t' then ['\\', 't']
  else if isPrintable c then [c]
  else if c.toNat < 0x100 then '\\' :: 'x' :: hexDigits 2 c.toNat
  else if c.toNat < 0x10000 then '\\' :: 'u' :: hexDigits 4 c.toNat
  else '\\' :: 'U' :: hexDigits 8 c.toNat

/-- A text between quotes. -/
def quote (s : String) : String :=
  let mark := chosenQuote s.toList
  String.ofList (mark :: s.toList.flatMap (quotedChar mark) ++ [mark])

/-- Raw bytes between quotes, marked by a leading `b`. -/
def quoteBytes (bytes : List UInt8) : String :=
  let cs := bytes.map fun byte => Char.ofNat byte.toNat
  let mark := chosenQuote cs
  let written := cs.flatMap fun c =>
    if c.toNat < 127 then quotedChar mark c else '\\' :: 'x' :: hexDigits 2 c.toNat
  String.ofList ('b' :: mark :: written ++ [mark])

end TrailSat.Text
