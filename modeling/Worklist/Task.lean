import Worklist.Predicate.Term
import Worklist.Value
import Worklist.Variable.Operator

/-!
# Tasks

A user task as queries see it, with the variables that are visible from it.
-/

namespace Worklist

/-- A stored variable that is visible from a task. -/
structure TaskVariable where
  name : String
  value : Value
  scope : VariableScope
  deriving DecidableEq

/-- A user task. -/
structure Task where
  id : String := ""
  name : Option String := none
  description : Option String := none
  assignee : Option String := none
  owner : Option String := none
  processInstanceId : Option String := none
  processDefinitionKey : Option String := none
  executionId : Option String := none
  caseInstanceId : Option String := none
  caseExecutionId : Option String := none
  taskDefinitionKey : Option String := none
  parentTaskId : Option String := none
  tenantId : Option String := none
  delegationState : Option DelegationState := none
  priority : Int32 := 0
  createTime : Instant := Instant.epoch
  dueDate : Option Instant := none
  followUpDate : Option Instant := none
  suspended : Bool := false
  /-- Users linked as candidates. -/
  candidateUsers : List String := []
  /-- Groups linked as candidates. -/
  candidateGroups : List String := []
  /-- Users linked in any other way. -/
  participants : List String := []
  storedVariables : List TaskVariable := []
  deriving DecidableEq

namespace Task

/-- A new task, which has a medium priority. -/
def new (id : String) : Task := { id, priority := 50 }

def withAssignee (t : Task) (assignee : String) : Task := { t with assignee := some assignee }

def withCandidateUser (t : Task) (user : String) : Task :=
  { t with candidateUsers := t.candidateUsers ++ [user] }

def withCandidateGroup (t : Task) (group : String) : Task :=
  { t with candidateGroups := t.candidateGroups ++ [group] }

def withVariable (t : Task) (v : TaskVariable) : Task :=
  { t with storedVariables := t.storedVariables ++ [v] }

/-! ## Attributes -/

/-- The content of an attribute. -/
inductive Content where
  | text (s : Option String)
  | int (n : Int32)
  | date (t : Option Instant)
  | suspended (b : Bool)
  | delegation (s : Option DelegationState)

/-- The content of the attribute that a field names. -/
def content (t : Task) : TaskField → Content
  | .id => .text (some t.id)
  | .name => .text t.name
  | .description => .text t.description
  | .assignee => .text t.assignee
  | .owner => .text t.owner
  | .processInstanceId => .text t.processInstanceId
  | .processDefinitionKey => .text t.processDefinitionKey
  | .executionId => .text t.executionId
  | .caseInstanceId => .text t.caseInstanceId
  | .caseExecutionId => .text t.caseExecutionId
  | .taskDefinitionKey => .text t.taskDefinitionKey
  | .parentTaskId => .text t.parentTaskId
  | .tenantId => .text t.tenantId
  | .delegationState => .delegation t.delegationState
  | .priority => .int t.priority
  | .createTime => .date (some t.createTime)
  | .dueDate => .date t.dueDate
  | .followUpDate => .date t.followUpDate
  | .suspended => .suspended t.suspended
  | .identityLink => .text none

end Task

end Worklist
