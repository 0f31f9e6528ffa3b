import Worklist.Binary64.Rounding
import Worklist.Json

/-!
# Numbers in JSON

The value of a number literal.  An integer that fits in 64 bits stays an integer, except that a
negative zero has to be a decimal.

A decimal is read from its leading digits that fit in 64 bits; digits of the integral part that
do not fit only scale the number, and fractional digits that do not fit are dropped.  The number
is then multiplied or divided by a power of ten, each operation rounding once, in steps of at most
`10 ^ 308`.
-/

namespace Worklist.Json

/-- Leading digits as a number, and the exponent of ten that the other digits stand for. -/
structure Scaled where
  digits : Nat
  exponent : Int
  deriving DecidableEq

/-- The first value that does not fit in 64 bits. -/
def wordLimit : Nat := UInt64.size

/-- Takes digits of the integral part: once one does not fit, the rest only count. -/
def takeIntegral : Scaled → List Nat → Scaled
  | s, [] => s
  | s, d :: ds =>
    if s.exponent = 0 ∧ 10 * s.digits + d < wordLimit then
      takeIntegral { s with digits := 10 * s.digits + d } ds
    else takeIntegral { s with exponent := s.exponent + 1 } ds

/-- Takes digits of the fraction up to the first that does not fit. -/
def takeFraction : Scaled → List Nat → Scaled
  | s, [] => s
  | s, d :: ds =>
    if 10 * s.digits + d < wordLimit then takeFraction ⟨10 * s.digits + d, s.exponent - 1⟩ ds
    else s

/-- The magnitude of scaled digits, unless it is beyond the range of binary64. -/
def Scaled.magnitude? (s : Scaled) : Option Binary64 :=
  let start := Binary64.ofNat s.digits
  if s.digits = 0 then some start
  else if 308 < s.exponent then none
  else if 0 ≤ s.exponent then
    let x := start.mulMagnitude (Binary64.ofNat (tenPow s.exponent.toNat))
    if x.isFinite then some x else none
  else
    let down := (-s.exponent).toNat
    if down ≤ 308 then some (start.divMagnitude (Binary64.ofNat (tenPow down)))
    else if down ≤ 616 then
      let step := start.divMagnitude (Binary64.ofNat (tenPow 308))
      some (step.divMagnitude (Binary64.ofNat (tenPow (down - 308))))
    else some Binary64.zero

/-- The parts of a number literal; `fraction` and `exponent` are absent when not written. -/
structure NumberLiteral where
  isNegative : Bool
  integral : List Nat
  fraction : Option (List Nat)
  exponent : Option Int

/-- A decimal with a sign. -/
def ofMagnitude? (isNegative : Bool) : Option Binary64 → Json
  | some x => decimal (if isNegative then x.withMinus else x)
  | none => unreadable

/-- The value of a literal. -/
def NumberLiteral.value (l : NumberLiteral) : Json :=
  let whole := takeIntegral ⟨0, 0⟩ l.integral
  match l.fraction, l.exponent with
  | none, none =>
    if whole.exponent ≠ 0 then ofMagnitude? l.isNegative whole.magnitude?
    else if l.isNegative then
      if whole.digits = 0 ∨ wordLimit / 2 < whole.digits then
        ofMagnitude? true (some (Binary64.ofNat whole.digits))
      else integer (-whole.digits)
    else integer whole.digits
  | fraction, exponent =>
    let s := takeFraction whole (fraction.getD [])
    ofMagnitude? l.isNegative ({ s with exponent := s.exponent + exponent.getD 0 }).magnitude?

end Worklist.Json
