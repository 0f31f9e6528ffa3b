import Worklist.Criteria.Clause
import Worklist.Proofs.Sql.Semantics
import Worklist.Task

/-!
# Tasks as rows

A task as a row of the task table and as rows of identity links, and what the
conditions on candidates mean over these rows.

* `Task.row` and `Task.links` are the encoding: an attribute stands in its
  column, null if it is absent, and every user or group that is linked to the
  task has a row of its own.
* `column_row` reads the column of an attribute, and `eq_truth` compares a
  text that may be absent.
* `truth_candidateLink` and `truth_candidateCondition` reduce a subquery over
  the links to the candidate users and the candidate groups of the task.
-/

namespace Worklist

open Sql

/-! ## The encoding -/

namespace Task

/-- The row of a task.  Attributes that are absent are null. -/
def row (task : Task) : Row :=
  [("RES.ID_", .text task.id),
    ("RES.NAME_", .ofText task.name),
    ("RES.DESCRIPTION_", .ofText task.description),
    ("RES.ASSIGNEE_", .ofText task.assignee),
    ("RES.OWNER_", .ofText task.owner),
    ("RES.PROC_INST_ID_", .ofText task.processInstanceId),
    ("D.KEY_", .ofText task.processDefinitionKey),
    ("RES.EXECUTION_ID_", .ofText task.executionId),
    ("RES.CASE_INST_ID_", .ofText task.caseInstanceId),
    ("RES.CASE_EXECUTION_ID_", .ofText task.caseExecutionId),
    ("RES.TASK_DEF_KEY_", .ofText task.taskDefinitionKey),
    ("RES.PARENT_TASK_ID_", .ofText task.parentTaskId),
    ("RES.TENANT_ID_", .ofText task.tenantId),
    ("RES.DELEGATION_", .ofText (task.delegationState.map DelegationState.text)),
    ("RES.PRIORITY_", .int task.priority.toInt64),
    ("RES.CREATE_TIME_", .date task.createTime),
    ("RES.DUE_DATE_", .ofDate task.dueDate),
    ("RES.FOLLOW_UP_DATE_", .ofDate task.followUpDate),
    ("RES.SUSPENSION_STATE_", .int (if task.suspended then 2 else 1))]

/-- An identity link of a task, of a given type and to a user or a group. -/
def link (task : Task) (type : String) (user group : Option String) : Row :=
  [("I.TASK_ID_", .text task.id), ("I.TYPE_", .text type), ("I.USER_ID_", .ofText user),
    ("I.GROUP_ID_", .ofText group)]

/-- The identity links of a task: its candidate users, its candidate groups, and its participants,
whose links have the given types. -/
def links (task : Task) (type : Nat → String) : List Row :=
  task.candidateUsers.map (fun user => task.link "candidate" (some user) none) ++
    task.candidateGroups.map (fun group => task.link "candidate" none (some group)) ++
    task.participants.mapIdx fun i user => task.link (type i) (some user) none

end Task

/-- A database whose identity links are those of a task.  The links of participants have other
types than those of candidates. -/
structure Encodes (db : Database) (task : Task) (type : Nat → String) : Prop where
  links : db.rows .identityLinks = task.links type
  other : ∀ i, type i ≠ "candidate"

/-- The value that an attribute has in the row of a task. -/
def Task.Content.datum : Task.Content → Datum
  | .text s => .ofText s
  | .int n => .int n.toInt64
  | .date t => .ofDate t
  | .suspended b => .int (if b then 2 else 1)
  | .delegation s => .ofText (s.map DelegationState.text)

/-- Every attribute stands in its column. -/
theorem column_row (task : Task) (field : TaskField) :
    task.row.column field.column = (task.content field).datum := by
  cases field <;> rfl

/-! ## Comparisons -/

/-- A text equals a value if it is present and the same. -/
theorem eq_truth {v : Option String} {x : String} :
    Relation.eq.truth (.ofText v) (.text x) = .holds ↔ v = some x := by
  cases v with
  | none => exact iff_of_false Truth.unknown_ne_holds (Option.some_ne_none x).symm
  | some s =>
    rw [Option.some_inj]
    exact Truth.ofBool_eq_holds.trans (beq_iff_eq.trans Std.LawfulEqOrd.compare_eq_iff_eq)

/-- A text is in a list if it is present and one of the values. -/
theorem any_eq_truth {v : Option String} {xs : List String} :
    Truth.any (xs.map fun x => Relation.eq.truth (.ofText v) (.text x)) = .holds ↔
      ∃ s ∈ xs, v = some s := by
  rw [Truth.any_eq_holds, List.mem_map]
  refine exists_congr fun x => and_congr_right fun _ => ?_
  exact eq_truth

theorem ofText_eq_null {v : Option String} : (Datum.ofText v == .null) = v.isNone := by
  cases v <;> rfl

theorem ofDate_eq_null {v : Option Instant} : (Datum.ofDate v == .null) = v.isNone := by
  cases v <;> rfl

/-! ## Identity links -/

section Links

variable {db : Database} {task : Task} {type : Nat → String} {link : Condition}
  {linkType : String} {user group : Option String}

/-- The rows of links stand for candidate users, candidate groups and participants. -/
theorem mem_links {r : Row} :
    r ∈ task.links type ↔
      (∃ user ∈ task.candidateUsers, task.link "candidate" (some user) none = r) ∨
        (∃ group ∈ task.candidateGroups, task.link "candidate" none (some group) = r) ∨
          ∃ (i : Nat) (h : i < task.participants.length),
            task.link (type i) (some task.participants[i]) none = r := by
  rw [Task.links, List.mem_append, List.mem_append, List.mem_map, List.mem_map, List.mem_mapIdx,
    or_assoc]

/-- A link belongs to its task. -/
theorem join_link {conditions : List Condition} :
    Truth.join .and (truths db (task.link linkType user group ++ task.row)
      (.compare (.column "I.TASK_ID_") .eq (.column "RES.ID_") :: conditions)) = .holds ↔
        ∀ c ∈ conditions, c.truth db (task.link linkType user group ++ task.row) = .holds := by
  have htask : Relation.eq.truth (.ofText (some task.id)) (.text task.id) = .holds :=
    eq_truth.2 rfl
  rw [join_truths, List.forall_mem_cons, Condition.truth]
  exact and_iff_right htask

/-- A link of a candidate has their type and satisfies the rest. -/
theorem join_candidate :
    Truth.join .and (truths db (task.link linkType user group ++ task.row)
      [.compare (.column "I.TASK_ID_") .eq (.column "RES.ID_"),
        .compare (.column "I.TYPE_") .eq (.literal "candidate"), link]) = .holds ↔
      linkType = "candidate" ∧
        link.truth db (task.link linkType user group ++ task.row) = .holds := by
  have htype : Relation.eq.truth (.ofText (some linkType)) (.text "candidate") = .holds ↔
      linkType = "candidate" := eq_truth.trans Option.some_inj
  rw [join_link, List.forall_mem_cons, List.forall_mem_singleton, Condition.truth]
  exact and_congr_left' htype

/-- A subquery over identity links is known, and looks at the links of the task. -/
theorem truth_anyLink (he : Encodes db task type) {isNegated : Bool} {conditions : List Condition} :
    (Condition.anyRow isNegated .identityLinks conditions).truth db task.row = .holds ↔
      ((∃ r ∈ task.links type, Truth.join .and (truths db (r ++ task.row) conditions) = .holds) ↔
        isNegated = false) := by
  rw [Condition.truth, Truth.negatedIf_ofBool, he.links, List.any_eq_true]
  simp only [decide_eq_true_iff]

/-- A subquery on the candidates of a task looks at its candidate users and groups. -/
theorem truth_candidateLink (he : Encodes db task type) {isNegated : Bool} :
    (candidateLink isNegated link).truth db task.row = .holds ↔
      (((∃ user ∈ task.candidateUsers,
          link.truth db (task.link "candidate" (some user) none ++ task.row) = .holds) ∨
        ∃ group ∈ task.candidateGroups,
          link.truth db (task.link "candidate" none (some group) ++ task.row) = .holds) ↔
        isNegated = false) := by
  rw [candidateLink, truth_anyLink he]
  refine iff_congr ⟨?_, ?_⟩ Iff.rfl
  · rintro ⟨r, hlink, hr⟩
    rcases mem_links.1 hlink with ⟨user, hmem, rfl⟩ | ⟨group, hmem, rfl⟩ | ⟨i, hi, rfl⟩
    · exact .inl ⟨user, hmem, (join_candidate.1 hr).2⟩
    · exact .inr ⟨group, hmem, (join_candidate.1 hr).2⟩
    · exact absurd (join_candidate.1 hr).1 (he.other i)
  · rintro (⟨user, hmem, hr⟩ | ⟨group, hmem, hr⟩)
    · exact ⟨_, mem_links.2 (.inl ⟨user, hmem, rfl⟩), join_candidate.2 ⟨rfl, hr⟩⟩
    · exact ⟨_, mem_links.2 (.inr (.inl ⟨group, hmem, rfl⟩)), join_candidate.2 ⟨rfl, hr⟩⟩

/-- A condition on links that holds of some candidate of a task. -/
theorem truth_positiveLink (he : Encodes db task type) :
    (candidateLink false link).truth db task.row = .holds ↔
      (∃ user ∈ task.candidateUsers,
          link.truth db (task.link "candidate" (some user) none ++ task.row) = .holds) ∨
        ∃ group ∈ task.candidateGroups,
          link.truth db (task.link "candidate" none (some group) ++ task.row) = .holds := by
  rw [truth_candidateLink he, iff_true_right rfl]

/-! ## Conditions on links -/

theorem truth_linkUser {x : String} :
    (Condition.compare (.column "I.USER_ID_") .eq (.marks [.text x])).truth db
      (task.link linkType user group ++ task.row) = .holds ↔ user = some x := by
  rw [Condition.truth]
  exact eq_truth

theorem truth_linkGroup {x : String} :
    (Condition.compare (.column "I.GROUP_ID_") .eq (.marks [.text x])).truth db
      (task.link linkType user group ++ task.row) = .holds ↔ group = some x := by
  rw [Condition.truth]
  exact eq_truth

theorem truth_linkGroupIn {xs : List String} :
    (Condition.isIn false (.column "I.GROUP_ID_") (xs.map fun x => .marks [.text x])).truth db
      (task.link linkType user group ++ task.row) = .holds ↔ ∃ x ∈ xs, group = some x := by
  rw [Condition.truth, List.map_map]
  exact any_eq_truth

theorem truth_linkHasUser :
    (Condition.isNull true (.column "I.USER_ID_")).truth db
      (task.link linkType user group ++ task.row) = .holds ↔ user.isSome = true := by
  have hnull : ((Expr.column "I.USER_ID_").datum db (task.link linkType user group ++ task.row) ==
      .null) = user.isNone := ofText_eq_null
  rw [truth_isNull hnull]
  cases user <;> simp

theorem truth_linkHasGroup :
    (Condition.isNull true (.column "I.GROUP_ID_")).truth db
      (task.link linkType user group ++ task.row) = .holds ↔ group.isSome = true := by
  have hnull : ((Expr.column "I.GROUP_ID_").datum db (task.link linkType user group ++ task.row) ==
      .null) = group.isNone := ofText_eq_null
  rw [truth_isNull hnull]
  cases group <;> simp

/-- Any link of a task may involve a user. -/
theorem truth_userLink (he : Encodes db task type) {x : String} :
    (Condition.anyRow false .identityLinks
      [.compare (.column "I.TASK_ID_") .eq (.column "RES.ID_"),
        .compare (.column "I.USER_ID_") .eq (.marks [.text x])]).truth db task.row = .holds ↔
      x ∈ task.candidateUsers ∨ x ∈ task.participants := by
  rw [truth_anyLink he, iff_true_right rfl]
  constructor
  · rintro ⟨r, hlink, hr⟩
    rcases mem_links.1 hlink with ⟨user, hmem, rfl⟩ | ⟨group, hmem, rfl⟩ | ⟨i, hi, rfl⟩ <;>
      rw [join_link, List.forall_mem_singleton, truth_linkUser] at hr
    · exact .inl (Option.some_inj.1 hr ▸ hmem)
    · cases hr
    · exact .inr (Option.some_inj.1 hr ▸ List.getElem_mem hi)
  · rintro (hmem | hmem)
    · refine ⟨_, mem_links.2 (.inl ⟨x, hmem, rfl⟩), ?_⟩
      rw [join_link, List.forall_mem_singleton, truth_linkUser]
    · obtain ⟨i, hi, rfl⟩ := List.getElem_of_mem hmem
      refine ⟨_, mem_links.2 (.inr (.inr ⟨i, hi, rfl⟩)), ?_⟩
      rw [join_link, List.forall_mem_singleton, truth_linkUser]

/-- A candidate user, or a group of that user. -/
theorem truth_linkCandidate {x : String} {groups : List String} :
    (candidateUserLink (.text x) groups).truth db
      (task.link linkType user group ++ task.row) = .holds ↔
        user = some x ∨ ∃ g ∈ groups, group = some g := by
  unfold candidateUserLink
  cases groups with
  | nil => simp [truth_linkUser]
  | cons g groups =>
    rw [if_neg (by simp), Condition.truth, truths, truths, truths, Truth.join_or_eq_holds,
      List.mem_singleton, eq_comm (a := Truth.holds), truth_linkUser, truth_linkGroupIn]

end Links

end Worklist
