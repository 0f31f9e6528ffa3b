/-!
# Connectives

The two ways in which the filters of a group are combined.
-/

namespace Worklist

/-- How the filters of a group are combined. -/
inductive Connective where
  | and
  | or
  deriving DecidableEq

namespace Connective

def sql : Connective → String
  | and => "AND"
  | or => "OR"

/-- The suffix of the calls that open and close such a group. -/
def callSuffix : Connective → String
  | and => "And"
  | or => "Or"

/-- Combines outcomes; without any outcome a group holds. -/
def combine (c : Connective) (outcomes : List Bool) : Bool :=
  if outcomes.isEmpty then true
  else
    match c with
    | and => outcomes.all id
    | or => outcomes.any id

end Connective

end Worklist
