import Worklist.Like.Pattern
import Worklist.Value.Compare
import Worklist.Variable

/-!
# Matching variables

Whether a stored variable satisfies a predicate, by name and by value.  Without regard to case,
names and texts are compared in lower case, and LIKE compares folded characters.
-/

namespace Worklist.VariablePredicate

def matchesName (p : VariablePredicate) (name : String) (ignoreCase : Bool) : Bool :=
  Value.comparable ignoreCase p.name == Value.comparable ignoreCase name

/-- Whether a stored value satisfies the comparison.  LIKE relates texts only, and a value differs
from null as soon as it is not null itself. -/
def matchesValue (p : VariablePredicate) (stored : Value) (ignoreCase : Bool) (escape : Char) :
    Bool :=
  match p.operator, stored, p.value with
  | .like, .string s, .string pattern => likeMatches s pattern escape ignoreCase
  | .like, _, _ => false
  | .notEquals, stored, .null => stored ≠ .null
  | operator, stored, value =>
    match stored.compare? value ignoreCase with
    | some order => operator.holds order
    | none => false

end Worklist.VariablePredicate
