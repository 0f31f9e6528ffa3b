import Worklist.Table

/-!
# Dimensions

The forty-two filters of a task query.  Each has one entry in the table `Dimension.traits`: how
repeated values combine, how values are compared, which attribute of the task they are compared
with, and whether an expression may stand for the value.
-/

namespace Worklist

/-- How the values of repeated calls combine. -/
inductive Arity where
  /-- A value per call: it replaces the others in an AND group and joins them in an OR group. -/
  | multi
  /-- A set of values per call, which combines in the same way. -/
  | set
  /-- The last value counts in every group. -/
  | single
  deriving DecidableEq

/-- How a value is compared with the attribute of a task. -/
inductive Comparison where
  | eq
  | ne
  | like
  | notLike
  | isIn
  | notIn
  | lt
  | gt
  | ge
  | le
  /-- Through the candidate links of the task. -/
  | candidate
  /-- As assignee, as owner, or through any link of the task. -/
  | involved
  deriving DecidableEq

/-- The attribute of a task that a dimension looks at. -/
inductive TaskField where
  | id
  | name
  | description
  | assignee
  | owner
  | processInstanceId
  | processDefinitionKey
  | executionId
  | caseInstanceId
  | caseExecutionId
  | taskDefinitionKey
  | parentTaskId
  | tenantId
  | delegationState
  | priority
  | createTime
  | dueDate
  | followUpDate
  | suspended
  | identityLink
  deriving DecidableEq

/-- The database column of an attribute. -/
def TaskField.column : TaskField → String
  | id => "RES.ID_"
  | name => "RES.NAME_"
  | description => "RES.DESCRIPTION_"
  | assignee => "RES.ASSIGNEE_"
  | owner => "RES.OWNER_"
  | processInstanceId => "RES.PROC_INST_ID_"
  | processDefinitionKey => "D.KEY_"
  | executionId => "RES.EXECUTION_ID_"
  | caseInstanceId => "RES.CASE_INST_ID_"
  | caseExecutionId => "RES.CASE_EXECUTION_ID_"
  | taskDefinitionKey => "RES.TASK_DEF_KEY_"
  | parentTaskId => "RES.PARENT_TASK_ID_"
  | tenantId => "RES.TENANT_ID_"
  | delegationState => "RES.DELEGATION_"
  | priority => "RES.PRIORITY_"
  | createTime => "RES.CREATE_TIME_"
  | dueDate => "RES.DUE_DATE_"
  | followUpDate => "RES.FOLLOW_UP_DATE_"
  | suspended => "RES.SUSPENSION_STATE_"
  | identityLink => "I.ID_"

/-- A filter of a task query. -/
inductive Dimension where
  | taskId
  | taskIdIn
  | name
  | nameNotEqual
  | nameLike
  | nameNotLike
  | description
  | descriptionLike
  | assignee
  | assigneeLike
  | assigneeIn
  | assigneeNotIn
  | owner
  | candidateUser
  | candidateGroup
  | candidateGroupIn
  | involvedUser
  | processInstanceId
  | processInstanceIdIn
  | processDefinitionKey
  | processDefinitionKeyIn
  | executionId
  | caseInstanceId
  | caseExecutionId
  | taskDefinitionKey
  | taskDefinitionKeyIn
  | taskDefinitionKeyLike
  | parentTaskId
  | tenantIdIn
  | delegationState
  | priority
  | minPriority
  | maxPriority
  | createdBefore
  | createdAfter
  | createdOn
  | dueBefore
  | dueAfter
  | dueDate
  | followUpBefore
  | followUpAfter
  | suspensionState
  deriving DecidableEq

namespace Dimension

/-- What is fixed about a dimension. -/
structure Traits where
  name : String
  arity : Arity
  comparison : Comparison
  field : TaskField
  supportsExpression : Bool

/-- The traits of each dimension. -/
def traits : Dimension → Traits
  | taskId => ⟨"TaskId", .multi, .eq, .id, false⟩
  | taskIdIn => ⟨"TaskIdIn", .set, .isIn, .id, false⟩
  | name => ⟨"Name", .multi, .eq, .name, false⟩
  | nameNotEqual => ⟨"NameNotEqual", .multi, .ne, .name, false⟩
  | nameLike => ⟨"NameLike", .multi, .like, .name, false⟩
  | nameNotLike => ⟨"NameNotLike", .multi, .notLike, .name, false⟩
  | description => ⟨"Description", .multi, .eq, .description, false⟩
  | descriptionLike => ⟨"DescriptionLike", .multi, .like, .description, false⟩
  | assignee => ⟨"Assignee", .multi, .eq, .assignee, true⟩
  | assigneeLike => ⟨"AssigneeLike", .multi, .like, .assignee, true⟩
  | assigneeIn => ⟨"AssigneeIn", .set, .isIn, .assignee, true⟩
  | assigneeNotIn => ⟨"AssigneeNotIn", .set, .notIn, .assignee, false⟩
  | owner => ⟨"Owner", .multi, .eq, .owner, true⟩
  | candidateUser => ⟨"CandidateUser", .multi, .candidate, .identityLink, true⟩
  | candidateGroup => ⟨"CandidateGroup", .multi, .candidate, .identityLink, true⟩
  | candidateGroupIn => ⟨"CandidateGroupIn", .set, .candidate, .identityLink, true⟩
  | involvedUser => ⟨"InvolvedUser", .multi, .involved, .identityLink, true⟩
  | processInstanceId => ⟨"ProcessInstanceId", .multi, .eq, .processInstanceId, false⟩
  | processInstanceIdIn => ⟨"ProcessInstanceIdIn", .set, .isIn, .processInstanceId, false⟩
  | processDefinitionKey => ⟨"ProcessDefinitionKey", .multi, .eq, .processDefinitionKey, false⟩
  | processDefinitionKeyIn =>
    ⟨"ProcessDefinitionKeyIn", .set, .isIn, .processDefinitionKey, false⟩
  | executionId => ⟨"ExecutionId", .multi, .eq, .executionId, false⟩
  | caseInstanceId => ⟨"CaseInstanceId", .multi, .eq, .caseInstanceId, false⟩
  | caseExecutionId => ⟨"CaseExecutionId", .multi, .eq, .caseExecutionId, false⟩
  | taskDefinitionKey => ⟨"TaskDefinitionKey", .multi, .eq, .taskDefinitionKey, false⟩
  | taskDefinitionKeyIn => ⟨"TaskDefinitionKeyIn", .set, .isIn, .taskDefinitionKey, false⟩
  | taskDefinitionKeyLike => ⟨"TaskDefinitionKeyLike", .multi, .like, .taskDefinitionKey, false⟩
  | parentTaskId => ⟨"ParentTaskId", .multi, .eq, .parentTaskId, false⟩
  | tenantIdIn => ⟨"TenantIdIn", .set, .isIn, .tenantId, false⟩
  | delegationState => ⟨"DelegationState", .multi, .eq, .delegationState, false⟩
  | priority => ⟨"Priority", .multi, .eq, .priority, false⟩
  | minPriority => ⟨"MinPriority", .single, .ge, .priority, false⟩
  | maxPriority => ⟨"MaxPriority", .single, .le, .priority, false⟩
  | createdBefore => ⟨"CreatedBefore", .single, .lt, .createTime, true⟩
  | createdAfter => ⟨"CreatedAfter", .single, .gt, .createTime, true⟩
  | createdOn => ⟨"CreatedOn", .single, .eq, .createTime, true⟩
  | dueBefore => ⟨"DueBefore", .single, .lt, .dueDate, true⟩
  | dueAfter => ⟨"DueAfter", .single, .gt, .dueDate, true⟩
  | dueDate => ⟨"DueDate", .single, .eq, .dueDate, true⟩
  | followUpBefore => ⟨"FollowUpBefore", .single, .lt, .followUpDate, true⟩
  | followUpAfter => ⟨"FollowUpAfter", .single, .gt, .followUpDate, true⟩
  | suspensionState => ⟨"SuspensionState", .single, .eq, .suspended, false⟩

/-- The name that messages use. -/
def display (d : Dimension) : String := d.traits.name

def arity (d : Dimension) : Arity := d.traits.arity

def comparison (d : Dimension) : Comparison := d.traits.comparison

def field (d : Dimension) : TaskField := d.traits.field

/-- Whether an expression may stand for a value. -/
def supportsExpression (d : Dimension) : Bool := d.traits.supportsExpression

/-- The filters on candidate users and groups. -/
def isCandidate : Dimension → Bool
  | candidateUser => true
  | candidateGroup => true
  | candidateGroupIn => true
  | _ => false

/-- All dimensions in their order. -/
def all : Vector Dimension 42 :=
  #v[taskId, taskIdIn, name, nameNotEqual, nameLike, nameNotLike, description, descriptionLike,
    assignee, assigneeLike, assigneeIn, assigneeNotIn, owner, candidateUser, candidateGroup,
    candidateGroupIn, involvedUser, processInstanceId, processInstanceIdIn, processDefinitionKey,
    processDefinitionKeyIn, executionId, caseInstanceId, caseExecutionId, taskDefinitionKey,
    taskDefinitionKeyIn, taskDefinitionKeyLike, parentTaskId, tenantIdIn, delegationState,
    priority, minPriority, maxPriority, createdBefore, createdAfter, createdOn, dueBefore,
    dueAfter, dueDate, followUpBefore, followUpAfter, suspensionState]

instance : Numbered Dimension where
  count := 42
  index d := ⟨d.ctorIdx, by cases d <;> decide⟩
  item i := all[i]
  item_index d := by cases d <;> rfl
  index_item i := by revert i; decide

/-- The position of a dimension in the order. -/
def index (d : Dimension) : Nat := d.ctorIdx

end Dimension

end Worklist
