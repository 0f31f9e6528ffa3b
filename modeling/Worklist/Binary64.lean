import Worklist.Power

/-!
# Binary64 numbers

A 64-bit floating-point number as its bit pattern, read exactly: a finite number is a whole
multiple of `2 ^ -1074`, and `scaled` is that multiple.  No runtime floating-point operation is
used, so comparisons are comparisons of integers.

The module has three groups:

* the fields of a word and the classes of numbers (`isNaN`, `isFinite`);
* the exact reading `scaled`, in which an infinity counts as `2 ^ 1024`, above every finite number
  and every 64-bit integer;
* the numeric order (`compare?`), which has no answer as soon as a NaN is involved.

Equality `=` compares bit patterns.  `==` is the numeric comparison: the two zeros agree and a NaN
agrees with nothing.
-/

namespace Worklist

/-- A floating-point number with a 53-bit significand, held as its 64-bit pattern. -/
structure Binary64 where
  bits : UInt64
  deriving DecidableEq, Inhabited

namespace Binary64

/-! ## Fields -/

/-- The bit pattern as a natural number below `2 ^ 64`. -/
def word (x : Binary64) : Nat := x.bits.toNat

/-- The sign bit. -/
def isNegative (x : Binary64) : Bool := twoPow 63 ≤ x.word

/-- The eleven bits of the biased exponent. -/
def exponentField (x : Binary64) : Nat := x.word / twoPow 52 % twoPow 11

/-- The fifty-two low bits. -/
def fraction (x : Binary64) : Nat := x.word % twoPow 52

def isNaN (x : Binary64) : Bool := x.exponentField == 2047 && x.fraction != 0

def isFinite (x : Binary64) : Bool := x.exponentField != 2047

/-! ## Exact reading -/

/-- The significand with its hidden bit, which subnormal numbers lack. -/
def significand (x : Binary64) : Nat :=
  if x.exponentField = 0 then x.fraction else twoPow 52 + x.fraction

/-- The exponent of the last place, counted from `2 ^ -1074`. -/
def unit (x : Binary64) : Nat := x.exponentField - 1

/-- The absolute value as a multiple of `2 ^ -1074`. -/
def magnitude (x : Binary64) : Nat := x.significand * twoPow x.unit

/-- The value as a multiple of `2 ^ -1074`; both zeros give `0`. -/
def scaled (x : Binary64) : Int :=
  if x.isNegative then -(x.magnitude : Int) else x.magnitude

/-! ## Numeric order -/

/-- The numeric order, with no answer when either side is a NaN. -/
def compare? (x y : Binary64) : Option Ordering :=
  if x.isNaN || y.isNaN then none else some (compare x.scaled y.scaled)

/-- Numeric equality, which is not equality of bits. -/
instance : BEq Binary64 where
  beq x y := x.compare? y == some .eq

/-! ## Constants -/

/-- Positive zero. -/
def zero : Binary64 := ⟨0⟩

/-- The same number with its sign bit set. -/
def withMinus (x : Binary64) : Binary64 := ⟨x.bits ||| 0x8000000000000000⟩

end Binary64

end Worklist
