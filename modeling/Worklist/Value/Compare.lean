import Worklist.Binary64.Integral
import Worklist.Text.Lower
import Worklist.Value

/-!
# Comparing values

The order of a stored value against a value of a query.  Values of different families have no
order, and neither has anything with a NaN.  Integers compare with each other whatever their width,
doubles with doubles, and a number of a query with every stored number.  Integers and floating
point numbers are compared exactly.
-/

namespace Worklist

/-- The exact order of two numbers. -/
def Numeric.compare? (a b : Numeric) : Option Ordering :=
  match a, b with
  | .integer m, .integer n => some (compare m.toInt n.toInt)
  | .decimal x, .decimal y => x.compare? y
  | .integer n, .decimal x => Binary64.compareInt? n x
  | .decimal x, .integer n => (Binary64.compareInt? n x).map Ordering.swap

namespace Value

/-- The number that a stored value holds. -/
def numeric? : Value → Option Numeric
  | integer n _ => some (.integer n)
  | double x => some (.decimal x)
  | number n => some n
  | _ => none

/-- The form of a text in which it is compared. -/
def comparable (ignoreCase : Bool) (s : String) : String := if ignoreCase then Text.lower s else s

/-- The order of a stored value against a value of a query, if they are of one family. -/
def compare? (stored query : Value) (ignoreCase : Bool) : Option Ordering :=
  match stored, query with
  | null, null => some .eq
  | boolean a, boolean b => some (compare a b)
  | string a, string b => some (compare (comparable ignoreCase a) (comparable ignoreCase b))
  | integer m _, integer n _ => some (compare m.toInt n.toInt)
  | double x, double y => x.compare? y
  | date s, date t => some (compare s t)
  | stored, number n => stored.numeric?.bind (·.compare? n)
  | _, _ => none

end Value

end Worklist
