import Worklist.Task
import Worklist.Wire.Predicate

/-!
# Tasks in JSON

Reading and writing tasks.  Every member of a task has a default.
-/

namespace Worklist.Wire

def taskVariable? (j : Json) : Option TaskVariable := do
  let r ← Record.of? ["name", "value", "scope"] j
  return {
    name := ← r.required? "name" string?
    value := ← r.required? "value" value?
    scope := ← r.required? "scope" (ofName? false) }

def ofTaskVariable (v : TaskVariable) : Json :=
  .object [("name", .string v.name), ("value", ofValue v.value), ("scope", toName v.scope)]

/-- The member names of a task in their order. -/
def taskMembers : List String :=
  ["id", "name", "description", "assignee", "owner", "process_instance_id",
    "process_definition_key", "execution_id", "case_instance_id", "case_execution_id",
    "task_definition_key", "parent_task_id", "tenant_id", "delegation_state", "priority",
    "create_time", "due_date", "follow_up_date", "suspended", "candidate_users",
    "candidate_groups", "participants", "variables"]

def task? (j : Json) : Option Task := do
  let r ← Record.of? taskMembers j
  let text? (name : String) := r.orDefault? name none (nullable? string?)
  let date? (name : String) := r.orDefault? name none (nullable? instant?)
  let texts? (name : String) := r.orDefault? name [] (list? string?)
  return {
    id := ← r.orDefault? "id" "" string?
    name := ← text? "name"
    description := ← text? "description"
    assignee := ← text? "assignee"
    owner := ← text? "owner"
    processInstanceId := ← text? "process_instance_id"
    processDefinitionKey := ← text? "process_definition_key"
    executionId := ← text? "execution_id"
    caseInstanceId := ← text? "case_instance_id"
    caseExecutionId := ← text? "case_execution_id"
    taskDefinitionKey := ← text? "task_definition_key"
    parentTaskId := ← text? "parent_task_id"
    tenantId := ← text? "tenant_id"
    delegationState := ← r.orDefault? "delegation_state" none (nullable? (ofName? false))
    priority := ← r.orDefault? "priority" 0 int32?
    createTime := ← r.orDefault? "create_time" Instant.epoch instant?
    dueDate := ← date? "due_date"
    followUpDate := ← date? "follow_up_date"
    suspended := ← r.orDefault? "suspended" false bool?
    candidateUsers := ← texts? "candidate_users"
    candidateGroups := ← texts? "candidate_groups"
    participants := ← texts? "participants"
    storedVariables := ← r.orDefault? "variables" [] (list? taskVariable?) }

def ofTask (t : Task) : Json :=
  .object [
    ("id", .string t.id),
    ("name", ofOption .string t.name),
    ("description", ofOption .string t.description),
    ("assignee", ofOption .string t.assignee),
    ("owner", ofOption .string t.owner),
    ("process_instance_id", ofOption .string t.processInstanceId),
    ("process_definition_key", ofOption .string t.processDefinitionKey),
    ("execution_id", ofOption .string t.executionId),
    ("case_instance_id", ofOption .string t.caseInstanceId),
    ("case_execution_id", ofOption .string t.caseExecutionId),
    ("task_definition_key", ofOption .string t.taskDefinitionKey),
    ("parent_task_id", ofOption .string t.parentTaskId),
    ("tenant_id", ofOption .string t.tenantId),
    ("delegation_state", ofOption toName t.delegationState),
    ("priority", .integer t.priority.toInt),
    ("create_time", ofInstant t.createTime),
    ("due_date", ofOption ofInstant t.dueDate),
    ("follow_up_date", ofOption ofInstant t.followUpDate),
    ("suspended", .bool t.suspended),
    ("candidate_users", ofList .string t.candidateUsers),
    ("candidate_groups", ofList .string t.candidateGroups),
    ("participants", ofList .string t.participants),
    ("variables", ofList ofTaskVariable t.storedVariables)]

end Worklist.Wire
