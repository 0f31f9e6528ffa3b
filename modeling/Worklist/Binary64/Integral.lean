import Worklist.Binary64.Rounding

/-!
# Integers against binary64 numbers

A 64-bit integer and a number are compared without rounding either of them.  A number beyond the
range of the integers decides the order at once.  Any other number is cut off towards zero, the
integral part becomes a 64-bit integer, and if that is the integer itself, the sign of what was cut
off decides.

* `trunc` cuts a number off, `toInt64` converts it, and `sub` is the rounded difference.
* `compareInt?` is the order.
-/

namespace Worklist.Binary64

/-! ## Comparisons -/

/-- Whether a number is less than another one; no NaN is. -/
def lt (x y : Binary64) : Bool := x.compare? y == some .lt

/-- Whether a number is at most another one; no NaN is. -/
def le (x y : Binary64) : Bool := x.lt y || x.compare? y == some .eq

/-! ## Integral parts -/

/-- The number cut off towards zero.  Below one nothing is left but the sign; otherwise the bits of
the fraction that stand for places behind the point are cleared. -/
def trunc (x : Binary64) : Binary64 :=
  if x.exponentField < 1023 then if x.isNegative then zero.withMinus else zero
  else ⟨UInt64.ofNat (x.word - x.word % twoPow (1075 - x.exponentField))⟩

/-- The 64-bit integer nearest to the number that is cut off towards zero; a NaN gives zero. -/
def toInt64 (x : Binary64) : Int64 :=
  if x.isNaN then 0
  else
    .ofInt (max Int64.minValue.toInt (min Int64.maxValue.toInt (x.scaled.tdiv (twoPow 1074))))

/-! ## Differences -/

/-- The number nearest to a multiple of `2 ^ -1074`. -/
def ofScaled (m : Int) : Binary64 :=
  if m < 0 then (nearest m.natAbs 1).withMinus else nearest m.natAbs 1

/-- The rounded difference of two finite numbers. -/
def sub (x y : Binary64) : Binary64 := ofScaled (x.scaled - y.scaled)

/-! ## The order -/

/-- `2 ^ 63`, the first number above all 64-bit integers. -/
def int64Bound : Binary64 := ⟨0x43E0000000000000⟩

/-- The order of an integer against a number, with no answer for a NaN. -/
def compareInt? (n : Int64) (x : Binary64) : Option Ordering :=
  if x.isNaN then none
  else if int64Bound.le x then some .lt
  else if x.lt int64Bound.withMinus then some .gt
  else
    let whole := x.trunc
    match compare n.toInt whole.toInt64.toInt with
    | .eq =>
      let rest := x.sub whole
      if zero.lt rest then some .lt else if rest.lt zero then some .gt else some .eq
    | order => some order

end Worklist.Binary64
