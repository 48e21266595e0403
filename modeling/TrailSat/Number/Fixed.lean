import TrailSat.Number.Binary

/-!
# Reals with a fixed number of decimals

A double is written with a given number of decimals, rounded to the nearest such number; a half goes
to the even neighbour.
-/

namespace TrailSat.Number

/-- A natural number with its last `places` digits behind a point; without a point if there are
none. -/
def withPoint (places n : Nat) : String :=
  let digits := (toString n).toList
  let padded := List.replicate (places + 1 - digits.length) '0' ++ digits
  let whole := padded.take (padded.length - places)
  let decimals := padded.drop (padded.length - places)
  String.ofList (if decimals.isEmpty then whole else whole ++ '.' :: decimals)

/-- A double with the given number of decimals. -/
def fixedText (places : Nat) (x : Float) : String :=
  match Binary.ofFloat? x with
  | none => if x.isNaN then "nan" else if x < 0 then "-inf" else "inf"
  | some b =>
    let scaled := Binary.roundDiv (b.fraction.1 * Nat.pow 10 places) b.fraction.2
    (if b.negative then "-" else "") ++ withPoint places scaled

end TrailSat.Number
