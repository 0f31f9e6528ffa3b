import Worklist.Query

/-!
# Checks before a query runs

The rules that a finished query has to obey, each with a name.  A list of checks runs in order and
stops at the first that fails.
-/

namespace Worklist

/-- A rule that a finished query has to obey. -/
inductive Check where
  /-- All groups are closed. -/
  | cursorAtRoot
  /-- Every sort key has a direction. -/
  | orderingDirections
  /-- No AND group has a candidate user together with candidate groups. -/
  | candidateExclusion
  /-- Assigned tasks are only included where there is a filter on candidates. -/
  | assignedTasksPrecondition
  /-- Nothing stands against a predicate on a variable. -/
  | variableOperators
  deriving DecidableEq

namespace Check

def name : Check → String
  | cursorAtRoot => "cursor-at-root"
  | orderingDirections => "ordering-directions"
  | candidateExclusion => "candidate-exclusion"
  | assignedTasksPrecondition => "assigned-tasks-precondition"
  | variableOperators => "variable-operators"

/-- All checks, in the order in which they run before a query is compiled. -/
def standard : List Check :=
  [cursorAtRoot, orderingDirections, candidateExclusion, assignedTasksPrecondition,
    variableOperators]

/-- The exclusion rule for one group. -/
def checkNodeExclusion (n : Node) : Except QueryError Unit :=
  if n.connective = .and then n.predicates.checkExclusion else .ok ()

/-- The rule on assigned tasks for one group. -/
def checkNodeAssignedTasks (n : Node) : Except QueryError Unit :=
  if n.predicates.hasFlag .includeAssignedTasks then n.predicates.checkAssignedTasks else .ok ()

/-- The rule on variables for one predicate. -/
def checkVariable (p : VariablePredicate) : Except QueryError Unit :=
  match VariablePredicate.objection? p.name p.value p.operator with
  | some e => .error e
  | none => .ok ()

/-- The rule on variables for one group. -/
def checkNodeVariables (n : Node) : Except QueryError Unit :=
  n.predicates.variablePredicates.forM checkVariable

/-- Runs one check. -/
def run (q : Query) : Check → Except QueryError Unit
  | cursorAtRoot => if q.isAtRoot then .ok () else .error (.openGroup q.current)
  | orderingDirections =>
    match q.sortKeys.find? (·.direction.isNone) with
    | some key => .error (.pendingDirection key.property)
    | none => .ok ()
  | candidateExclusion => q.tree.nodes.toList.forM checkNodeExclusion
  | assignedTasksPrecondition => q.tree.nodes.toList.forM checkNodeAssignedTasks
  | variableOperators => q.tree.nodes.toList.forM checkNodeVariables

/-- Runs checks in order; the first failure counts. -/
def runAll (q : Query) (checks : List Check) : Except QueryError Unit := checks.forM (run q)

end Check

end Worklist
