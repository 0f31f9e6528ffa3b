import Worklist.Binary64

/-!
# Shortest decimal text

The decimal with the fewest digits among those that round back to a given number, and its plain
positional text without an exponent.

The reals that round to a number form an interval around it, closed when the significand is even.
On each decimal grid, from coarse to fine, only the two neighbours of the number can lie in that
interval.  The first grid with a hit gives the digits; of two hits the nearer one is taken, and
the upper one when both are equally near.
-/

namespace Worklist.Binary64

/-- Lower end, value and upper end of the interval that rounds to `x`, in multiples of
`2 ^ -1076`.  Below a power of two the numbers lie twice as dense. -/
def interval (x : Binary64) : Nat × Nat × Nat :=
  let value := 4 * x.magnitude
  let gap := twoPow x.unit
  let below := if x.fraction = 0 ∧ 1 < x.exponentField then gap else 2 * gap
  (value - below, value, value + 2 * gap)

/-- The multiple of `10 ^ exponent` that reads back as `x`, if the grid has one. -/
def onGrid? (x : Binary64) (exponent : Int) : Option Nat :=
  let step := tenPow exponent.toNat * twoPow 1076
  let stretch := tenPow (-exponent).toNat
  let (low, value, high) := x.interval
  let (low, value, high) := (low * stretch, value * stretch, high * stretch)
  let inside (n : Nat) : Bool :=
    if x.fraction % 2 = 0 then low ≤ n && n ≤ high else low < n && n < high
  let floor := value / step
  let down := floor * step
  let up := down + step
  match inside down, inside up with
  | true, true => some (if up - value ≤ value - down then floor + 1 else floor)
  | true, false => some floor
  | false, true => some (floor + 1)
  | false, false => none

/-- Digits and exponent on the first grid from `10 ^ exponent` downwards that has a hit. -/
def searchGrid (x : Binary64) : Nat → Int → Nat × Int
  | 0, exponent => (0, exponent)
  | fuel + 1, exponent =>
    match x.onGrid? exponent with
    | some digits => (digits, exponent)
    | none => searchGrid x fuel (exponent - 1)

/-- The shortest decimal `digits * 10 ^ exponent` that reads back as a finite magnitude.  Every
number is hit between `10 ^ 309` and `10 ^ -324`. -/
def shortest (x : Binary64) : Nat × Int :=
  if x.magnitude = 0 then (0, 0) else searchGrid x 640 309

/-- The decimal digits of a natural number. -/
def digitsOf (n : Nat) : List Char := Nat.toDigits 10 n

/-- Positional notation of `digits * 10 ^ exponent`, without an exponent and without a point
when the value is whole. -/
def positional (digits : Nat) (exponent : Int) : List Char :=
  if 0 ≤ exponent then digitsOf (digits * tenPow exponent.toNat)
  else
    let places := (-exponent).toNat
    let padded := digitsOf digits
    let padded := List.replicate (places + 1 - padded.length) '0' ++ padded
    padded.take (padded.length - places) ++ '.' :: padded.drop (padded.length - places)

/-- The text of a number: sign, then the shortest positional decimal. -/
def text (x : Binary64) : String :=
  if x.isNaN then "NaN"
  else
    let sign := if x.isNegative then "-" else ""
    if x.isFinite then
      let (digits, exponent) := x.shortest
      sign ++ String.ofList (positional digits exponent)
    else sign ++ "inf"

end Worklist.Binary64
