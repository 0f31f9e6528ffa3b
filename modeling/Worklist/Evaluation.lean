import Worklist.Criteria
import Worklist.Task
import Worklist.Variable.Matching

/-!
# Evaluating a compiled query on a task

The outcome of a compiled query for one task.  A group combines the outcomes of its own filters
and of its children by its connective; the groups are evaluated in reverse pre-order, so that
children come before their parent.  An attribute that is absent satisfies no comparison.

Expressions are resolved when their group is evaluated; an evaluation can only fail on what an
expression resolves to.
-/

namespace Worklist

/-- What an expression resolves to. -/
inductive Resolution where
  | text (s : String)
  | list (ss : List String)
  | date (t : Instant)
  deriving DecidableEq

/-- Resolves expressions. -/
abbrev ExpressionResolver := String → Except BackendError Resolution

/-! ## Literal values -/

/-- The outcome of a comparison that does not look at links. -/
def compareContent (d : Dimension) (t : Term) (escape : Char) (task : Task) :
    Except BackendError Bool :=
  match task.content d.field, t with
  | .text none, .text _ => .ok false
  | .text none, .textSet _ => .ok false
  | .text (some s), .text expected =>
    match d.comparison with
    | .eq => .ok (s == expected)
    | .ne => .ok (s != expected)
    | .like => .ok (likeMatches s expected escape false)
    | .notLike => .ok !(likeMatches s expected escape false)
    | _ => .error (.mismatch d t)
  | .text (some s), .textSet expected =>
    match d.comparison with
    | .isIn => .ok (expected.contains s)
    | .notIn => .ok !(expected.contains s)
    | _ => .error (.mismatch d t)
  | .int n, .int expected =>
    match d.comparison with
    | .eq => .ok (n == expected)
    | .ge => .ok (expected.toInt ≤ n.toInt)
    | .le => .ok (n.toInt ≤ expected.toInt)
    | _ => .error (.mismatch d t)
  | .date none, .date _ => .ok false
  | .date (some found), .date expected =>
    match d.comparison with
    | .eq => .ok (found == expected)
    | .lt => .ok (compare found expected == .lt)
    | .gt => .ok (compare found expected == .gt)
    | _ => .error (.mismatch d t)
  | .suspended b, .suspension s => .ok (b == (s == .suspended))
  | .delegation s, .delegation expected => .ok (s == some expected)
  | _, _ => .error (.mismatch d t)

/-- Whether candidate filters of a group see a task. -/
def seesCandidates (s : PredicateSet) (task : Task) : Bool :=
  task.assignee.isNone || s.hasFlag .includeAssignedTasks

/-- The outcome of a candidate filter on a task that it sees; `groups` are the groups that a
candidate user is expanded to. -/
def compareCandidates (d : Dimension) (t : Term) (groups : List String) (task : Task) :
    Except BackendError Bool :=
  match d, t with
  | .candidateUser, .text user =>
    .ok (task.candidateUsers.contains user || task.candidateGroups.any groups.contains)
  | .candidateGroup, .text group => .ok (task.candidateGroups.contains group)
  | .candidateGroupIn, .textSet expected => .ok (task.candidateGroups.any expected.contains)
  | d, t => .error (.mismatch d t)

/-- Whether a user is assignee or owner of a task or linked to it. -/
def isInvolved (user : String) (task : Task) : Bool :=
  task.assignee == some user || task.owner == some user || task.candidateUsers.contains user ||
    task.participants.contains user

/-- The outcome of a dimension with a value; `groups` are the groups that a candidate user is
expanded to. -/
def dimensionOutcome (s : PredicateSet) (d : Dimension) (t : Term) (groups : List String)
    (escape : Char) (task : Task) : Except BackendError Bool :=
  match d.comparison, t with
  | .candidate, t =>
    if seesCandidates s task then compareCandidates d t groups task else .ok false
  | .involved, .text user => .ok (isInvolved user task)
  | _, t => compareContent d t escape task

/-! ## Expressions -/

/-- The value that an expression gives to a dimension. -/
def resolvedTerm (d : Dimension) (expression : String) (r : Resolution) :
    Except BackendError Term :=
  match d.arity, r with
  | .set, .text s => .ok (.textSet [s])
  | .set, .list ss => .ok (.textSet ss)
  | _, .text s => .ok (.text s)
  | _, .date t => .ok (.date t)
  | _, .list _ => .error (.unexpectedList d expression)

/-! ## Switches and variables -/

/-- The outcome of a switch; a modifier filters nothing. -/
def flagOutcome (s : PredicateSet) (task : Task) : Flag → Bool
  | .unassigned => task.assignee.isNone
  | .assigned => task.assignee.isSome
  | .withCandidateGroups => seesCandidates s task && !task.candidateGroups.isEmpty
  | .withCandidateUsers => seesCandidates s task && !task.candidateUsers.isEmpty
  | .withoutCandidateGroups => task.candidateGroups.isEmpty
  | .withoutCandidateUsers => task.candidateUsers.isEmpty
  | .withoutTenantId => task.tenantId.isNone
  | .withoutDueDate => task.dueDate.isNone
  | .includeAssignedTasks => true
  | .matchVariableNamesIgnoreCase => true
  | .matchVariableValuesIgnoreCase => true

/-- Whether some visible variable of the task has the name and satisfies the comparison. -/
def variableOutcome (s : PredicateSet) (p : VariablePredicate) (escape : Char) (task : Task) :
    Bool :=
  let visible := p.scope.visible p.isLocal
  let ignoreName := s.hasFlag .matchVariableNamesIgnoreCase
  let ignoreValue := s.hasFlag .matchVariableValuesIgnoreCase
  task.storedVariables.any fun v =>
    visible.contains v.scope && p.matchesName v.name ignoreName &&
      p.matchesValue v.value ignoreValue escape

/-! ## Groups -/

namespace Tree

variable (t : Tree) (own : NodeId → Except BackendError (List Bool))

/-- Evaluates one group after its children and records its outcome.  `own` gives the outcomes of
the filters of a group itself. -/
def evaluateGroup (outcomes : Array Bool) (id : NodeId) : Except BackendError (Array Bool) := do
  let n := t.node id
  let results ← own id
  let nested := n.children.map fun child => outcomes[child]?.getD true
  return outcomes.setIfInBounds id (n.connective.combine (results ++ nested))

/-- The outcomes of all groups, the children evaluated before their parents. -/
def evaluate : Except BackendError (Array Bool) :=
  t.preorder.reverse.foldlM (t.evaluateGroup own) (Array.replicate t.size true)

end Tree

namespace Criteria

variable (c : Criteria) (resolve : ExpressionResolver) (task : Task)

/-- The outcome of a literal value. -/
def termOutcome (s : PredicateSet) (d : Dimension) (t : Term) : Except BackendError Bool :=
  dimensionOutcome s d t (c.groupsOf (t.user?.getD "")) c.likeEscape task

/-- The outcome of an expression; a candidate user is not expanded here. -/
def expressionOutcome (s : PredicateSet) (d : Dimension) (expression : String) :
    Except BackendError Bool := do
  let t ← resolvedTerm d expression (← resolve expression)
  dimensionOutcome s d t [] c.likeEscape task

/-- The outcomes of the filters of a group itself, in the order of its conditions. -/
def ownOutcomes (s : PredicateSet) : Except BackendError (List Bool) := do
  let literals := s.terms.toList.flatMap fun (d, ts) => ts.map (d, ·)
  let terms ← literals.mapM fun (d, t) => c.termOutcome task s d t
  let expressions ← s.expressions.toList.mapM fun (d, e) => c.expressionOutcome resolve task s d e
  let flags := s.filterFlags.map (flagOutcome s task)
  let onVariables := s.variablePredicates.map (variableOutcome s · c.likeEscape task)
  return terms ++ expressions ++ flags ++ onVariables

/-- Whether a task satisfies the compiled query. -/
def holds : Except BackendError Bool := do
  let outcomes ← c.tree.evaluate fun id =>
    c.ownOutcomes resolve task (c.tree.node id).predicates
  return outcomes[Tree.root]?.getD true

end Criteria

end Worklist
