import Worklist.Binary64

/-!
# Rounding to binary64

A quotient of natural numbers is rounded to the nearest representable number, ties going to the
even significand.  Products and quotients of numbers are the exact result rounded once, and a
magnitude beyond the largest finite number becomes the infinity.

The argument of `nearest` is measured in multiples of `2 ^ -1074`, the unit of
`Binary64.magnitude`.
-/

namespace Worklist.Binary64

/-- A quotient rounded to the nearest integer, a half going to the even neighbour. -/
def roundHalfEven (num den : Nat) : Nat :=
  let floor := num / den
  let rest := 2 * (num % den)
  if rest < den then floor
  else if den < rest then floor + 1
  else floor + floor % 2

/-- The exponent of the last place for a magnitude whose integral part is `whole`. -/
def unitFor (whole : Nat) : Nat := Nat.log2 whole - 52

/-- The number nearest to `num / den` multiples of `2 ^ -1074`.  A significand that rounds up to
`2 ^ 53` carries into the exponent field by plain addition. -/
def nearest (num den : Nat) : Binary64 :=
  let unit := unitFor (num / den)
  let pattern := unit * twoPow 52 + roundHalfEven num (den * twoPow unit)
  ⟨UInt64.ofNat (min pattern (2047 * twoPow 52))⟩

/-- The number nearest to a natural number. -/
def ofNat (n : Nat) : Binary64 := nearest (n * twoPow 1074) 1

/-- The number nearest to an integer. -/
def ofInt (n : Int) : Binary64 :=
  if n < 0 then (ofNat n.natAbs).withMinus else ofNat n.natAbs

/-- The rounded product of two magnitudes. -/
def mulMagnitude (x y : Binary64) : Binary64 := nearest (x.magnitude * y.magnitude) (twoPow 1074)

/-- The rounded quotient of two magnitudes. -/
def divMagnitude (x y : Binary64) : Binary64 := nearest (x.magnitude * twoPow 1074) y.magnitude

end Worklist.Binary64
