import TrailSat.Number.Integer
import TrailSat.Number.Shortest

/-!
# Writing and reading reals

A double is written with the fewest digits that read back.  Numbers from `10⁻⁴` up to `10¹⁶` are
written positionally and always show a point; the others have an exponent of at least two digits.

`readReal?` reads decimal notation with an optional exponent, digits of any script, single
underscores between digits, and the names of infinity and NaN in any case.
-/

namespace TrailSat.Number

open Text

/-! ## Writing -/

/-- A row of decimal digits with the point after the first `point` of them, positionally. -/
def positional (digits : List Char) (point : Int) : List Char :=
  if point ≤ 0 then '0' :: '.' :: List.replicate (-point).toNat '0' ++ digits
  else if digits.length ≤ point.toNat then
    digits ++ List.replicate (point.toNat - digits.length) '0' ++ ['.', '0']
  else digits.take point.toNat ++ '.' :: digits.drop point.toNat

/-- An exponent with its sign and at least two digits. -/
def exponentText (exponent : Int) : List Char :=
  let digits := Nat.toDigits 10 exponent.natAbs
  (if exponent < 0 then '-' else '+') ::
    (if digits.length < 2 then '0' :: digits else digits)

/-- A row of decimal digits with the point after the first `point` of them, with an exponent. -/
def scientific (digits : List Char) (point : Int) : List Char :=
  let mantissa := match digits with
    | first :: second :: rest => first :: '.' :: second :: rest
    | few => few
  mantissa ++ 'e' :: exponentText (point - 1)

/-- A decimal, written positionally from `10⁻⁴` up to `10¹⁶` and with an exponent elsewhere.  Final
zeros of the digits are dropped first. -/
def Decimal.text (d : Decimal) : List Char :=
  let all := Nat.toDigits 10 d.digits
  let point := d.scale + all.length
  let digits := (all.reverse.dropWhile (· == '0')).reverse
  if -4 < point && point ≤ 16 then positional digits point else scientific digits point

/-- The text of a double. -/
def realText (x : Float) : String :=
  match Binary.ofFloat? x with
  | none => if x.isNaN then "nan" else if x < 0 then "-inf" else "inf"
  | some b =>
    let size := if b.digits = 0 then ['0', '.', '0'] else (Decimal.shortest b).text
    String.ofList (if b.negative then '-' :: size else size)

/-! ## Reading -/

/-- The double nearest to `digits · 10 ^ exponent`.  Numbers far outside the range of doubles are
recognised by their size alone. -/
def nearestReal (digits : Nat) (exponent : Int) : Float :=
  let lead := ((Nat.toDigits 10 digits).length : Int) + exponent
  if digits = 0 || lead < -400 then 0.0
  else if 400 < lead then 1.0 / 0.0
  else Float.ofScientific digits (decide (exponent < 0)) exponent.natAbs

/-- The unsigned decimal number that a text denotes: digits with an optional point, at least one
digit in all, and an optional exponent. -/
def decimal? (cs : List Char) : Option Float :=
  let isPart (c : Char) : Bool := isDigit c || c == '_'
  let whole := cs.takeWhile isPart
  let afterWhole := cs.dropWhile isPart
  let (part, afterPart) := match afterWhole with
    | '.' :: rest => (rest.takeWhile isPart, rest.dropWhile isPart)
    | rest => ([], rest)
  let fits (run : List Char) : Bool := run.isEmpty || isGrouped false run
  let digits := (whole ++ part).filter (· != '_')
  let places : Int := ((part.filter (· != '_')).length : Int)
  if !(fits whole && fits part) || digits.isEmpty then none
  else match afterPart with
    | [] => some (nearestReal (ofDigits digits) (-places))
    | mark :: rest =>
      let (negative, exponent) := splitSign rest
      if (mark == 'e' || mark == 'E') && exponent.all isPart && isGrouped false exponent then
        let size : Int := ofDigits exponent
        some (nearestReal (ofDigits digits) ((if negative then -size else size) - places))
      else none

/-- The real that a text denotes. -/
def readReal? (s : String) : Option Float :=
  let trimmed := ((s.toList.dropWhile isMargin).reverse.dropWhile isMargin).reverse
  let (negative, body) := splitSign trimmed
  let named := String.ofList (body.map Char.toLower)
  let size? :=
    if named == "inf" || named == "infinity" then some (1.0 / 0.0)
    else if named == "nan" then some (0.0 / 0.0)
    else decimal? body
  size?.map fun size => if negative then -size else size

end TrailSat.Number
