/-!
# Character mappings

A map from characters to characters given by runs.  In one run every `step`-th code point from
`first` to `last` moves by the same distance; all other characters stay as they are.
-/

namespace Worklist.Text

/-- Code points `first`, `first + step`, …, `last`, moved so that `first` lands on `target`. -/
structure Run where
  first : Nat
  last : Nat
  step : Nat
  target : Nat

/-- The image of a code point, if the run moves it. -/
def Run.image? (r : Run) (n : Nat) : Option Nat :=
  if r.first ≤ n && n ≤ r.last && (n - r.first) % r.step == 0 then some (r.target + (n - r.first))
  else none

/-- A character mapping as a list of runs, of which the first that moves a character counts. -/
structure CaseMap where
  runs : List Run

/-- The image of a character. -/
def CaseMap.apply (m : CaseMap) (c : Char) : Char :=
  match m.runs.findSome? (·.image? c.toNat) with
  | some n => Char.ofNat n
  | none => c

end Worklist.Text
