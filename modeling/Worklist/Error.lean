import Worklist.Connective
import Worklist.Predicate.Term
import Worklist.Sorting
import Worklist.Variable.Operator

/-!
# What can go wrong

The causes for which building, checking, compiling or running a query fails, the kind that each
belongs to, and the message of each.  A backend has failures of its own, of which the caller of a
query only learns whether a group was empty.
-/

namespace Worklist

/-! ## Failures of a query -/

/-- The kinds of failure that callers tell apart. -/
inductive QueryErrorKind where
  | structural
  | orderingNotAllowed
  | mutualExclusion
  | missingPrecondition
  | unsupportedOperator
  | unsupportedType
  | emptyGroup
  | execution
  | invalidArgument
  deriving DecidableEq

/-- Why a call on a query fails. -/
inductive QueryError where
  /-- A group is closed although none is open. -/
  | unmatchedEnd (called : Connective)
  /-- A group is closed by the call for the other connective. -/
  | mismatchedEnd (called current : Connective)
  /-- A query is used while a group is open. -/
  | openGroup (group : Nat)
  /-- A sort key waits for its direction. -/
  | pendingDirection (property : SortProperty)
  /-- A direction is given although no sort key waits for it. -/
  | strayDirection (direction : Direction)
  /-- Queries are merged while a group is open. -/
  | mergeInsideGroup
  /-- A sort key is added inside a nested group. -/
  | orderingInsideGroup (property : SortProperty) (group : Nat)
  /-- A candidate user meets a filter on candidate groups. -/
  | userWithGroups (other : Dimension)
  /-- A filter on candidate groups meets a candidate user. -/
  | groupsWithUser (setter : Dimension)
  /-- Assigned tasks are included without any filter on candidates. -/
  | noCandidateFilter
  | unsupportedOperator (operator : VariableOperator) (typeName : String)
  | unsupportedType (typeName : String)
  /-- A nested group has no filter. -/
  | emptyGroup
  /-- The backend failed. -/
  | execution
  | emptyList (dimension : Dimension)
  | blankVariableName
  deriving DecidableEq

namespace QueryError

def kind : QueryError → QueryErrorKind
  | unmatchedEnd _ => .structural
  | mismatchedEnd _ _ => .structural
  | openGroup _ => .structural
  | pendingDirection _ => .structural
  | strayDirection _ => .structural
  | mergeInsideGroup => .structural
  | orderingInsideGroup _ _ => .orderingNotAllowed
  | userWithGroups _ => .mutualExclusion
  | groupsWithUser _ => .mutualExclusion
  | noCandidateFilter => .missingPrecondition
  | unsupportedOperator _ _ => .unsupportedOperator
  | unsupportedType _ => .unsupportedType
  | emptyGroup => .emptyGroup
  | execution => .execution
  | emptyList _ => .invalidArgument
  | blankVariableName => .invalidArgument

/-- The name by which messages refer to a group. -/
def groupName (group : Nat) : String := "#" ++ toString group

/-- The name of the call that sets a filter on candidates. -/
def candidateCall : Dimension → String
  | .candidateGroup => "candidateGroup"
  | .candidateGroupIn => "candidateGroupIn"
  | _ => "candidateUser"

/-- What happened, without the words for its kind. -/
def detail : QueryError → String
  | unmatchedEnd called =>
    "end" ++ called.callSuffix ++ " called without a matching start" ++ called.callSuffix
  | mismatchedEnd called current =>
    "end" ++ called.callSuffix ++ " called while the current group is " ++ current.sql
  | openGroup group =>
    "query is still inside group " ++ groupName group ++
      "; close every group with endAnd()/endOr() before executing"
  | pendingDirection property => "call asc() or desc() after orderBy " ++ property.display
  | strayDirection direction =>
    "call orderBy before " ++ (match direction with | .ascending => "asc" | .descending => "desc")
      ++ "()"
  | mergeInsideGroup => "both queries must be at their root group to be merged"
  | orderingInsideGroup property group =>
    "orderBy " ++ property.display ++ " is not allowed inside group " ++ groupName group
  | userWithGroups other => "cannot set both candidateUser and " ++ candidateCall other
  | groupsWithUser setter => "cannot set both " ++ candidateCall setter ++ " and candidateUser"
  | noCandidateFilter =>
    "candidateUser, candidateGroup, candidateGroupIn, withCandidateGroups, " ++
      "withoutCandidateGroups, withCandidateUsers, withoutCandidateUsers has to be " ++
      "called before 'includeAssignedTasks'"
  | unsupportedOperator operator typeName =>
    "Operator " ++ operator.name ++ " is not supported for " ++ typeName ++ " values"
  | unsupportedType typeName => "Variables of type " ++ typeName ++ " cannot be used to query"
  | emptyGroup => "At least one filter must be defined within a nested group"
  | execution => "Compiled query could not be executed"
  | emptyList dimension => dimension.display ++ " list is empty"
  | blankVariableName => "variable name must not be empty"

end QueryError

/-- The words that introduce the failures of a kind. -/
def QueryErrorKind.introduction : QueryErrorKind → String
  | structural => "Invalid query structure: "
  | orderingNotAllowed => "Ordering not allowed: "
  | mutualExclusion => "Invalid query usage: "
  | missingPrecondition => "Invalid query usage: "
  | invalidArgument => "Invalid argument: "
  | _ => ""

/-- The message of a failure. -/
def QueryError.message (e : QueryError) : String := e.kind.introduction ++ e.detail

/-! ## Failures of a backend -/

/-- The kinds of failure of a backend. -/
inductive BackendErrorKind where
  /-- A group came out empty. -/
  | emptyGroup
  /-- The query or a value of it was refused. -/
  | malformed
  /-- An expression has no value. -/
  | unresolved
  | other
  deriving DecidableEq

/-- The name of a kind in messages. -/
def BackendErrorKind.name : BackendErrorKind → String
  | emptyGroup => "EmptyGroup"
  | malformed => "Malformed"
  | unresolved => "Unresolved"
  | other => "Other"

/-- A failure of the backend that runs a compiled query. -/
structure BackendError where
  kind : BackendErrorKind
  detail : String
  deriving DecidableEq

namespace BackendError

/-- The message of a backend failure. -/
def message (e : BackendError) : String := e.kind.name ++ ": " ++ e.detail

/-- A value that the attribute of a dimension cannot be compared with. -/
def mismatch (d : Dimension) (t : Term) : BackendError :=
  ⟨.malformed, t.display ++ " cannot be compared with " ++ d.display⟩

/-- An expression that gives a list where one value is needed. -/
def unexpectedList (d : Dimension) (expression : String) : BackendError :=
  ⟨.malformed, "expression " ++ expression ++ " resolved to a list for " ++ d.display⟩

/-- An expression that nothing is known about. -/
def unknownExpression (expression : String) : BackendError :=
  ⟨.unresolved, "unknown expression " ++ expression⟩

/-- What the caller of a query sees of a backend failure. -/
def toQueryError (e : BackendError) : QueryError :=
  match e.kind with
  | .emptyGroup => .emptyGroup
  | _ => .execution

end BackendError

end Worklist
