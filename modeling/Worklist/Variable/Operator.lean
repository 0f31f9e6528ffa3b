/-!
# Operators and scopes of variables

How a variable predicate compares values, and at which level of the process it looks for the
variable.
-/

namespace Worklist

/-- How the value of a variable is compared. -/
inductive VariableOperator where
  | equals
  | notEquals
  | like
  | greaterThan
  | greaterThanOrEqual
  | lessThan
  | lessThanOrEqual
  deriving DecidableEq

namespace VariableOperator

/-- Operators that only tell whether values are the same. -/
def isIdentity : VariableOperator → Bool
  | equals => true
  | notEquals => true
  | _ => false

def sql : VariableOperator → String
  | equals => "="
  | notEquals => "<>"
  | like => "LIKE"
  | greaterThan => ">"
  | greaterThanOrEqual => ">="
  | lessThan => "<"
  | lessThanOrEqual => "<="

def name : VariableOperator → String
  | equals => "EQUALS"
  | notEquals => "NOT_EQUALS"
  | like => "LIKE"
  | greaterThan => "GREATER_THAN"
  | greaterThanOrEqual => "GREATER_THAN_OR_EQUAL"
  | lessThan => "LESS_THAN"
  | lessThanOrEqual => "LESS_THAN_OR_EQUAL"

/-- Whether an operator holds of values in a given order. -/
def holds (op : VariableOperator) (order : Ordering) : Bool :=
  match op with
  | equals => order == .eq
  | notEquals => order != .eq
  | greaterThan => order == .gt
  | greaterThanOrEqual => order != .lt
  | lessThan => order == .lt
  | lessThanOrEqual => order != .gt
  | like => false

end VariableOperator

/-- The level at which a variable is stored or looked for. -/
inductive VariableScope where
  | taskLocal
  | processInstance
  | caseExecution
  deriving DecidableEq

/-- The levels at which a predicate sees variables: a predicate on a task sees all levels unless
it is local. -/
def VariableScope.visible (scope : VariableScope) (isLocal : Bool) : List VariableScope :=
  match scope, isLocal with
  | taskLocal, true => [taskLocal]
  | taskLocal, false => [taskLocal, processInstance, caseExecution]
  | processInstance, _ => [processInstance]
  | caseExecution, _ => [caseExecution]

end Worklist
