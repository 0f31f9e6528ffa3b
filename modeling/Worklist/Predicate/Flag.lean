import Worklist.Table

/-!
# Switches of a group

Filters without a value, and modifiers that change how the other filters of the group are read.
-/

namespace Worklist

inductive Flag where
  | unassigned
  | assigned
  | withCandidateGroups
  | withoutCandidateGroups
  | withCandidateUsers
  | withoutCandidateUsers
  | withoutTenantId
  | withoutDueDate
  | includeAssignedTasks
  | matchVariableNamesIgnoreCase
  | matchVariableValuesIgnoreCase
  deriving DecidableEq

namespace Flag

/-- A modifier does not filter tasks by itself. -/
def isModifier : Flag → Bool
  | includeAssignedTasks => true
  | matchVariableNamesIgnoreCase => true
  | matchVariableValuesIgnoreCase => true
  | _ => false

/-- The filters on the presence of candidates. -/
def isCandidateRelated : Flag → Bool
  | withCandidateGroups => true
  | withoutCandidateGroups => true
  | withCandidateUsers => true
  | withoutCandidateUsers => true
  | _ => false

/-- All switches in their order. -/
def all : Vector Flag 11 :=
  #v[unassigned, assigned, withCandidateGroups, withoutCandidateGroups, withCandidateUsers,
    withoutCandidateUsers, withoutTenantId, withoutDueDate, includeAssignedTasks,
    matchVariableNamesIgnoreCase, matchVariableValuesIgnoreCase]

instance : Numbered Flag where
  count := 11
  index f := ⟨f.ctorIdx, by cases f <;> decide⟩
  item i := all[i]
  item_index f := by cases f <;> rfl
  index_item i := by revert i; decide

end Flag

/-- A set of switches. -/
abbrev FlagSet := Table Flag Unit

end Worklist
