import Worklist.Error
import Worklist.Text.CharSet
import Worklist.Value.Raw

/-!
# Variable predicates

A comparison of a named variable with a typed value.  The restrictions on the name, the value and
the operator are part of the type: a predicate exists only when `objection?` has none, so every
predicate can be run.
-/

namespace Worklist

namespace VariablePredicate

/-- The first reason not to compare a variable with a value by an operator: a blank name, a type
that cannot be queried, or an operator that the type does not support. -/
def objection? (name : String) (value : Value) (operator : VariableOperator) :
    Option QueryError :=
  if Text.isBlankText name then some .blankVariableName
  else
    match value with
    | .unsupported kind => some (.unsupportedType kind.typeName)
    | .string _ => none
    | value =>
      if value.isNullOrBoolean && !operator.isIdentity || operator == .like then
        some (.unsupportedOperator operator value.typeName)
      else none

end VariablePredicate

/-- A comparison of a named variable with a typed value. -/
structure VariablePredicate where
  name : String
  value : Value
  operator : VariableOperator
  scope : VariableScope
  isLocal : Bool
  unobjectionable : VariablePredicate.objection? name value operator = none
  deriving DecidableEq

namespace VariablePredicate

/-- Predicates agree when their parts do; doubles are compared by their numeric value. -/
instance : BEq VariablePredicate where
  beq p q :=
    p.name == q.name && p.value == q.value && p.operator == q.operator && p.scope == q.scope &&
      p.isLocal == q.isLocal

/-- Builds a predicate unless there is an objection. -/
def new (name : String) (value : Value) (operator : VariableOperator) (scope : VariableScope)
    (isLocal : Bool) : Except QueryError VariablePredicate :=
  match h : objection? name value operator with
  | some e => .error e
  | none => .ok { name, value, operator, scope, isLocal, unobjectionable := h }

/-- Builds a predicate on a raw value. -/
def ofRaw (name : String) (raw : RawValue) (operator : VariableOperator) (scope : VariableScope)
    (isLocal : Bool) : Except QueryError VariablePredicate :=
  new name raw.normalize operator scope isLocal

/-- What makes one predicate take the place of another when queries are merged. -/
def mergeKey (p : VariablePredicate) : String × VariableScope × Bool := (p.name, p.scope, p.isLocal)

end VariablePredicate

end Worklist
