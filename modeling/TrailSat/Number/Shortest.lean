import TrailSat.Number.Binary

/-!
# The shortest decimal that reads back

Many decimals are read back as one double: those in an interval around it, which reaches half way
to the neighbouring doubles and holds its ends when the last binary digit is even.  `shortest`
finds the decimal with the fewest digits in that interval, and of these the nearest to the double.

A decimal with `count` digits is a point of a grid; if the interval holds a point of the grid, it
holds one of the two that surround the double.  So each grid is tried with these two points, from
one digit up to seventeen, where the grid is always fine enough.
-/

namespace TrailSat.Number

/-- The decimal `digits · 10 ^ scale`. -/
structure Decimal where
  digits : Nat
  scale : Int
deriving Repr, DecidableEq

namespace Decimal

/-- `10 ^ exponent` as a fraction. -/
def powerOfTen (exponent : Int) : Nat × Nat :=
  if 0 ≤ exponent then (Nat.pow 10 exponent.toNat, 1) else (1, Nat.pow 10 (-exponent).toNat)

/-- The interval of a double, in quarters of its last binary digit, and whether the ends belong. -/
structure Interval where
  low : Nat
  middle : Nat
  high : Nat
  closed : Bool

/-- The interval of a nonzero double.  Below a power of two the doubles lie twice as close. -/
def Interval.ofBinary (b : Binary) : Interval where
  low :=
    if b.digits = Binary.leadingBit ∧ b.scale ≠ -1074 then 4 * b.digits - 1
    else 4 * b.digits - 2
  middle := 4 * b.digits
  high := 4 * b.digits + 2
  closed := b.digits % 2 = 0

/-- The decimal with the given number of digits that lies in the interval of a double, if there is
one.  `lead` is the exponent of the double's first decimal digit. -/
def onGrid? (b : Binary) (lead : Int) (count : Nat) : Option Decimal :=
  let interval := Interval.ofBinary b
  let scale := lead - (count - 1 : Nat)
  let ten := powerOfTen scale
  let two := Binary.powerOfTwo (b.scale - 2)
  let unit := ten.1 * two.2
  let quarter := two.1 * ten.2
  let inside (point : Nat) : Bool :=
    if interval.closed then
      interval.low * quarter ≤ point * unit && point * unit ≤ interval.high * quarter
    else interval.low * quarter < point * unit && point * unit < interval.high * quarter
  let below := interval.middle * quarter / unit
  let above := below + 1
  let nearest := Binary.roundDiv (interval.middle * quarter) unit
  if inside below && inside above then some ⟨nearest, scale⟩
  else if inside below then some ⟨below, scale⟩
  else if inside above then some ⟨above, scale⟩
  else none

/-- The exponent of the first decimal digit of a nonzero double.  The number of binary digits gives
an exponent that is at most one too low. -/
def leadingExponent (b : Binary) : Int :=
  let estimate := ((b.digits.log2 : Int) + b.scale) * 30103 / 100000
  let next := powerOfTen (estimate + 1)
  if next.1 * b.fraction.2 ≤ b.fraction.1 * next.2 then estimate + 1 else estimate

/-- The shortest decimal that is read back as the given nonzero double. -/
def shortest (b : Binary) : Decimal :=
  let lead := leadingExponent b
  ((List.range 17).findSome? fun count => onGrid? b lead (count + 1)).getD ⟨b.digits, b.scale⟩

end Decimal

end TrailSat.Number
