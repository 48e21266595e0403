/-!
# Binary fractions

A finite double is an integer times a power of two.  `Binary.ofFloat?` takes a double apart, and the
functions here that have to be exact, rounding to an integer and comparing with an integer, work on
the parts.
-/

namespace TrailSat.Number

/-- A finite double: `±digits · 2 ^ scale`. -/
structure Binary where
  negative : Bool
  digits : Nat
  scale : Int
deriving Repr, DecidableEq

namespace Binary

/-- The leading bit of a normal double, which is not stored: the 52 bits below it are. -/
def leadingBit : Nat :=
  0x10000000000000

/-- The parts of a double, or `none` for an infinity or a NaN.  The eleven exponent bits hold the
scale of a normal number, raised by 1075; the lowest exponent marks numbers without a leading
bit. -/
def ofFloat? (x : Float) : Option Binary :=
  let bits := x.toBits.toNat
  let exponent : Nat := bits / leadingBit % 2048
  let fraction : Nat := bits % leadingBit
  let negative : Bool := 2048 * leadingBit ≤ bits
  if exponent = 2047 then none
  else if exponent = 0 then some ⟨negative, fraction, -1074⟩
  else some ⟨negative, leadingBit + fraction, (exponent : Int) - 1075⟩

/-- The quotient of two numbers, rounded to the nearest integer; a half goes to the even one. -/
def roundDiv (num den : Nat) : Nat :=
  let low := num / den
  let rest := num % den
  if 2 * rest < den then low
  else if den < 2 * rest then low + 1
  else low + low % 2

/-- `2 ^ exponent` as a fraction. -/
def powerOfTwo (exponent : Int) : Nat × Nat :=
  if 0 ≤ exponent then (1 <<< exponent.toNat, 1) else (1, 1 <<< (-exponent).toNat)

/-- The size of the number as a fraction. -/
def fraction (b : Binary) : Nat × Nat :=
  (b.digits * (powerOfTwo b.scale).1, (powerOfTwo b.scale).2)

/-- The nearest integer; a half goes to the even one. -/
def round (b : Binary) : Int :=
  let n := roundDiv b.fraction.1 b.fraction.2
  if b.negative then -(n : Int) else n

/-- The number as a signed fraction with a positive denominator. -/
def signedFraction (b : Binary) : Int × Nat :=
  (if b.negative then -(b.fraction.1 : Int) else b.fraction.1, b.fraction.2)

end Binary

end TrailSat.Number
