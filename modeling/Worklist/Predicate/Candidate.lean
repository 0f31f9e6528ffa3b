import Worklist.Error
import Worklist.Predicate.Set

/-!
# Rules on candidate filters

A candidate user and candidate groups exclude each other in an AND group.  While a query is built
the rule is checked from the side of the filter that is being set, and for expressions in OR groups
as well.  Assigned tasks can only be included where there is a filter on candidates.
-/

namespace Worklist.PredicateSet

/-- The filter on candidate groups that a group has, if any. -/
def candidateGroupFilter? (s : PredicateSet) : Option Dimension :=
  if s.hasPredicate .candidateGroup then some .candidateGroup
  else if s.hasPredicate .candidateGroupIn then some .candidateGroupIn
  else none

/-- Checked before a candidate user is set. -/
def checkCandidateUser (s : PredicateSet) : Except QueryError Unit :=
  match s.candidateGroupFilter? with
  | some other => .error (.userWithGroups other)
  | none => .ok ()

/-- Checked before a filter on candidate groups is set. -/
def checkCandidateGroups (s : PredicateSet) (setter : Dimension) : Except QueryError Unit :=
  if s.hasPredicate .candidateUser then .error (.groupsWithUser setter) else .ok ()

/-- Checked before a dimension is set in a group with a connective. -/
def checkCandidates (s : PredicateSet) (c : Connective) (isExpression : Bool) (d : Dimension) :
    Except QueryError Unit :=
  if c == .and || isExpression then
    match d with
    | .candidateUser => s.checkCandidateUser
    | .candidateGroup => s.checkCandidateGroups .candidateGroup
    | .candidateGroupIn => s.checkCandidateGroups .candidateGroupIn
    | _ => .ok ()
  else .ok ()

/-- Checked of a finished AND group. -/
def checkExclusion (s : PredicateSet) : Except QueryError Unit :=
  if s.hasPredicate .candidateUser then s.checkCandidateUser else .ok ()

/-- Checked where assigned tasks are included. -/
def checkAssignedTasks (s : PredicateSet) : Except QueryError Unit :=
  if s.hasCandidatePredicate then .ok () else .error .noCandidateFilter

end Worklist.PredicateSet
