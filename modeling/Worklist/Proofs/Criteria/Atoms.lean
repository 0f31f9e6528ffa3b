import Worklist.Proofs.Criteria.Encoding
import Worklist.Proofs.Criteria.Readable

/-!
# Atoms of the clause

The condition that is written for a literal value or for a switch means over
the encoding of a task what the evaluation computes from the task itself.

* `Agrees` relates a truth value to an outcome.  An unknown condition selects
  no row, so it agrees with an outcome that is false.
* `agrees_column` compares the columns, one lemma for each kind of value, and
  `agrees_candidates` and `agrees_involved` follow the links.
* `atom_meaning` collects them for every group of a compiled query, and gets the
  condition by reading the text that is written for the filter.
-/

namespace Worklist

open Sql

/-- A condition agrees with an evaluation that gives a result: it holds exactly if the result is
true. -/
def Agrees (t : Truth) (outcome : Except BackendError Bool) : Prop :=
  ∃ b, outcome = .ok b ∧ (t = .holds ↔ b = true)

theorem agrees_ofBool (b : Bool) : Agrees (.ofBool b) (.ok b) :=
  ⟨b, rfl, Truth.ofBool_eq_holds⟩

theorem agrees_accepts {r : Relation} {order : Ordering} {b : Bool} (h : r.accepts order = b) :
    Agrees (.ofBool (r.accepts order)) (.ok b) :=
  h ▸ agrees_ofBool (r.accepts order)

theorem agrees_not (b : Bool) : Agrees (Truth.ofBool b).not (.ok !b) :=
  Truth.not_ofBool b ▸ agrees_ofBool !b

/-- A comparison with null agrees with an evaluation that gives false. -/
theorem agrees_unknown : Agrees .unknown (.ok false) :=
  ⟨false, rfl, iff_of_false Truth.unknown_ne_holds Bool.false_ne_true⟩

/-! ## Values of dimensions -/

/-- The comparisons of a column with a kind of value. -/
def TermKind.comparisons : TermKind → List Comparison
  | .text => [.eq, .ne, .like, .notLike]
  | .textSet => [.isIn, .notIn]
  | .int => [.eq, .ge, .le]
  | .date => [.eq, .lt, .gt]
  | .suspension => [.eq]
  | .delegation => [.eq]

/-- Whether the content of an attribute can be compared with a kind of value. -/
def Task.Content.takes : Task.Content → TermKind → Bool
  | .text _, .text => true
  | .text _, .textSet => true
  | .int _, .int => true
  | .date _, .date => true
  | .suspended _, .suspension => true
  | .delegation _, .delegation => true
  | _, _ => false

namespace Dimension

/-- A dimension follows the links of a task or compares a column with its kind of value. -/
theorem compared (d : Dimension) : d.isCandidate = true ∨ d = .involvedUser ∨
    d.isCandidate = false ∧ d.comparison ∈ d.termKind.comparisons := by
  cases d <;> decide

/-- The attribute of a dimension can be compared with the values of the dimension. -/
theorem takes (d : Dimension) (task : Task) : (task.content d.field).takes d.termKind = true := by
  cases d <;> rfl

end Dimension

/-! ## Comparisons with columns -/

section Columns

variable (db : Database) (task : Task) {d : Dimension} {escape : Char}

/-- A column against one bound value. -/
theorem truth_compare_column (field : TaskField) (relation : Relation) (p : Param) :
    (Condition.compare (.column field.column) relation (.marks [p])).truth db task.row =
      relation.truth (task.content field).datum (p.datum db) := by
  rw [Condition.truth, Expr.datum, Expr.datum, column_row]

/-- A column against a bound pattern. -/
theorem truth_like_column (isNegated : Bool) (field : TaskField) (p : Param) :
    (Condition.like isNegated (.column field.column) (.marks [p]) escape).truth db task.row =
      .negatedIf isNegated (likeTruth escape (task.content field).datum (p.datum db)) := by
  rw [Condition.truth, Expr.datum, Expr.datum, column_row]

/-- A column against a list of bound values. -/
theorem truth_isIn_column (isNegated : Bool) (field : TaskField) (xs : List String) :
    (Condition.isIn isNegated (.column field.column)
      ((xs.map Param.text).map fun p => .marks [p])).truth db task.row =
        .negatedIf isNegated
          (.any (xs.map fun x => Relation.eq.truth (task.content field).datum (.text x))) := by
  rw [Condition.truth, Expr.datum, column_row, List.map_map, List.map_map]
  rfl

/-- A null column is neither in a list nor outside of it. -/
theorem truth_any_null {xs : List String} (h : xs ≠ []) :
    Truth.any (xs.map fun x => Relation.eq.truth .null (.text x)) = .unknown := by
  induction xs with
  | nil => exact absurd rfl h
  | cons x xs ih =>
    cases xs with
    | nil => rfl
    | cons y ys =>
      show Truth.or .unknown (Truth.any _) = _
      rw [ih (List.cons_ne_nil y ys)]
      rfl

/-- A text that is present is in a list or is not. -/
theorem truth_any_text (s : String) (xs : List String) :
    Truth.any (xs.map fun x => Relation.eq.truth (.text s) (.text x)) =
      .ofBool (xs.contains s) := by
  induction xs with
  | nil => rfl
  | cons x xs ih =>
    rw [List.map_cons, List.contains_cons, ← Truth.or_ofBool, ← ih, ← Relation.accepts_eq]
    rfl

theorem agrees_text {v : Option String} (hfield : task.content d.field = .text v)
    (hcomparison : d.comparison ∈ TermKind.text.comparisons) (x : String) :
    Agrees ((columnCondition d [.text x] escape).truth db task.row)
      (compareContent d (.text x) escape task) := by
  simp only [TermKind.comparisons, List.mem_cons, List.not_mem_nil, or_false] at hcomparison
  rcases hcomparison with h | h | h | h <;> simp only [columnCondition, compareContent, h]
  · rw [truth_compare_column, hfield]
    cases v with
    | none => exact agrees_unknown
    | some s => exact agrees_accepts (Relation.accepts_eq s x)
  · rw [truth_compare_column, hfield]
    cases v with
    | none => exact agrees_unknown
    | some s => exact agrees_accepts (Relation.accepts_ne s x)
  · rw [truth_like_column, hfield]
    cases v with
    | none => exact agrees_unknown
    | some s => exact agrees_ofBool _
  · rw [truth_like_column, hfield]
    cases v with
    | none => exact agrees_unknown
    | some s => exact agrees_not _

/-- An empty list would make `NOT IN` hold of null. -/
theorem agrees_textSet {v : Option String} (hfield : task.content d.field = .text v)
    (hcomparison : d.comparison ∈ TermKind.textSet.comparisons) {xs : List String}
    (hxs : xs ≠ []) :
    Agrees ((columnCondition d (xs.map .text) escape).truth db task.row)
      (compareContent d (.textSet xs) escape task) := by
  simp only [TermKind.comparisons, List.mem_cons, List.not_mem_nil, or_false] at hcomparison
  rcases hcomparison with h | h <;> simp only [columnCondition, compareContent, h]
  · rw [truth_isIn_column, hfield, Task.Content.datum]
    cases v with
    | none =>
      rw [Datum.ofText, truth_any_null hxs]
      exact agrees_unknown
    | some s =>
      rw [Datum.ofText, truth_any_text]
      exact agrees_ofBool (xs.contains s)
  · rw [truth_isIn_column, hfield, Task.Content.datum]
    cases v with
    | none =>
      rw [Datum.ofText, truth_any_null hxs]
      exact agrees_unknown
    | some s =>
      rw [Datum.ofText, truth_any_text]
      exact agrees_not (xs.contains s)

/-- Integers of 32 bits keep their order as integers of 64 bits. -/
theorem truth_int (r : Relation) (m n : Int32) :
    r.truth (.int m.toInt64) (.int n.toInt64) = .ofBool (r.accepts (compare m.toInt n.toInt)) := by
  rw [Relation.truth, Datum.order?, Int32.toInt_toInt64, Int32.toInt_toInt64]

theorem agrees_int {n : Int32} (hfield : task.content d.field = .int n)
    (hcomparison : d.comparison ∈ TermKind.int.comparisons) (x : Int32) :
    Agrees ((columnCondition d [.int x.toInt64] escape).truth db task.row)
      (compareContent d (.int x) escape task) := by
  simp only [TermKind.comparisons, List.mem_cons, List.not_mem_nil, or_false] at hcomparison
  rcases hcomparison with h | h | h <;> simp only [columnCondition, compareContent, h]
  · rw [truth_compare_column, hfield, Task.Content.datum, Param.datum, truth_int,
      Relation.accepts_eq]
    have heq : (n.toInt == x.toInt) = (n == x) := by
      rw [Bool.eq_iff_iff, beq_iff_eq, beq_iff_eq, Int32.toInt_inj]
    exact heq ▸ agrees_ofBool (n == x)
  · rw [truth_compare_column, hfield, Task.Content.datum, Param.datum, truth_int,
      Relation.accepts_ge]
    exact agrees_ofBool _
  · rw [truth_compare_column, hfield, Task.Content.datum, Param.datum, truth_int,
      Relation.accepts_le]
    exact agrees_ofBool _

theorem agrees_date {v : Option Instant} (hfield : task.content d.field = .date v)
    (hcomparison : d.comparison ∈ TermKind.date.comparisons) (x : Instant) :
    Agrees ((columnCondition d [.date x] escape).truth db task.row)
      (compareContent d (.date x) escape task) := by
  simp only [TermKind.comparisons, List.mem_cons, List.not_mem_nil, or_false] at hcomparison
  rcases hcomparison with h | h | h <;> simp only [columnCondition, compareContent, h]
  · rw [truth_compare_column, hfield]
    cases v with
    | none => exact agrees_unknown
    | some t => exact agrees_accepts (Relation.accepts_eq t x)
  · rw [truth_compare_column, hfield]
    cases v with
    | none => exact agrees_unknown
    | some t => exact agrees_ofBool (compare t x == .lt)
  · rw [truth_compare_column, hfield]
    cases v with
    | none => exact agrees_unknown
    | some t => exact agrees_ofBool (compare t x == .gt)

theorem agrees_suspension {b : Bool} (hfield : task.content d.field = .suspended b)
    (hcomparison : d.comparison ∈ TermKind.suspension.comparisons) (x : SuspensionState) :
    Agrees ((columnCondition d (Term.suspension x).params escape).truth db task.row)
      (compareContent d (.suspension x) escape task) := by
  rw [TermKind.comparisons, List.mem_singleton] at hcomparison
  cases x <;> simp only [columnCondition, compareContent, hcomparison, Term.params]
  · rw [truth_compare_column, hfield]
    cases b <;> exact agrees_ofBool _
  · rw [truth_compare_column, hfield]
    cases b <;> exact agrees_ofBool _

theorem agrees_delegation {v : Option DelegationState}
    (hfield : task.content d.field = .delegation v)
    (hcomparison : d.comparison ∈ TermKind.delegation.comparisons) (x : DelegationState) :
    Agrees ((columnCondition d [.text x.text] escape).truth db task.row)
      (compareContent d (.delegation x) escape task) := by
  rw [TermKind.comparisons, List.mem_singleton] at hcomparison
  simp only [columnCondition, compareContent, hcomparison]
  rw [truth_compare_column, hfield]
  refine ⟨v == some x, rfl, eq_truth.trans ?_⟩
  cases v with
  | none => simp
  | some s => cases s <;> cases x <;> decide

/-- A column against a value of its kind. -/
theorem agrees_column (hcomparison : d.comparison ∈ d.termKind.comparisons) {t : Term}
    (hkind : t.kind = d.termKind) (hfilled : t ≠ .textSet []) :
    Agrees ((columnCondition d t.params escape).truth db task.row)
      (compareContent d t escape task) := by
  have htakes := d.takes task
  rw [← hkind] at hcomparison htakes
  cases t <;> cases hfield : task.content d.field <;> rw [hfield] at htakes <;> cases htakes
  case text.text x v => exact agrees_text db task hfield hcomparison x
  case textSet.text xs v =>
    refine agrees_textSet db task hfield hcomparison fun hnil => ?_
    exact hfilled (congrArg Term.textSet hnil)
  case int.int x n => exact agrees_int db task hfield hcomparison x
  case date.date x v => exact agrees_date db task hfield hcomparison x
  case suspension.suspended x b => exact agrees_suspension db task hfield hcomparison x
  case delegation.delegation x v => exact agrees_delegation db task hfield hcomparison x

end Columns

/-! ## Candidates -/

section Candidates

variable {db : Database} {task : Task} {type : Nat → String} {s : PredicateSet}
  {link : Condition}

theorem assignee_isNull {isNegated : Bool} :
    (Condition.isNull isNegated (.column "RES.ASSIGNEE_")).truth db task.row = .holds ↔
      (task.assignee.isNone = true ↔ isNegated = false) := by
  have hnull : ((Expr.column "RES.ASSIGNEE_").datum db task.row == .null) =
      task.assignee.isNone := ofText_eq_null
  exact truth_isNull hnull

/-- A filter on candidates holds if it sees the task and some candidate satisfies it. -/
theorem truth_candidateCondition :
    (candidateCondition s link).truth db task.row = .holds ↔
      seesCandidates s task = true ∧ (candidateLink false link).truth db task.row = .holds := by
  rw [candidateCondition, seesCandidates]
  by_cases hflag : s.hasFlag .includeAssignedTasks = true
  · rw [if_pos hflag, hflag, Bool.or_true, and_iff_right rfl]
  · rw [if_neg hflag, Bool.eq_false_iff.2 hflag, Bool.or_false, Condition.truth, join_truths,
      List.forall_mem_cons, List.forall_mem_singleton, assignee_isNull, iff_true_right rfl]

/-- A filter on candidates agrees with an outcome that looks at the candidates in the same way. -/
theorem agrees_candidateCondition {b : Bool}
    (h : (candidateLink false link).truth db task.row = .holds ↔ b = true) :
    Agrees ((candidateCondition s link).truth db task.row)
      (if seesCandidates s task then .ok b else .ok false) := by
  refine ⟨seesCandidates s task && b, ?_, ?_⟩
  · cases seesCandidates s task <;> rfl
  · rw [truth_candidateCondition, h, Bool.and_eq_true]

theorem holds_candidateUser (he : Encodes db task type) (user : String) (groups : List String) :
    (candidateLink false (candidateUserLink (.text user) groups)).truth db task.row = .holds ↔
      (task.candidateUsers.contains user || task.candidateGroups.any groups.contains) = true := by
  rw [truth_positiveLink he]
  simp [truth_linkCandidate]

theorem holds_candidateGroup (he : Encodes db task type) (group : String) :
    (candidateLink false (.compare (.column "I.GROUP_ID_") .eq (.marks [.text group]))).truth db
      task.row = .holds ↔ task.candidateGroups.contains group = true := by
  rw [truth_positiveLink he]
  simp [truth_linkGroup]

theorem holds_candidateGroupIn (he : Encodes db task type) (groups : List String) :
    (candidateLink false (.isIn false (.column "I.GROUP_ID_")
      ((groups.map Param.text).map fun p => .marks [p]))).truth db task.row = .holds ↔
        task.candidateGroups.any groups.contains = true := by
  rw [truth_positiveLink he, List.map_map]
  simp [Function.comp_def, truth_linkGroupIn]

/-- A filter on candidates with a value of its kind. -/
theorem agrees_candidates (he : Encodes db task type) {d : Dimension}
    (hd : d.isCandidate = true) {t : Term} (hkind : t.kind = d.termKind) (groups : List String)
    (escape : Char) :
    Agrees ((boundCondition s d t.params groups escape).truth db task.row)
      (dimensionOutcome s d t groups escape task) := by
  cases d <;> cases hd <;> cases t <;> cases hkind
  case candidateUser.refl.text.refl user =>
    exact agrees_candidateCondition (holds_candidateUser he user groups)
  case candidateGroup.refl.text.refl group =>
    exact agrees_candidateCondition (holds_candidateGroup he group)
  case candidateGroupIn.refl.textSet.refl xs =>
    exact agrees_candidateCondition (holds_candidateGroupIn he xs)

/-! ## Involved users -/

/-- An involved user. -/
theorem agrees_involved (he : Encodes db task type) (user : String) :
    Agrees ((involvedCondition [.text user]).truth db task.row) (.ok (isInvolved user task)) := by
  have hassignee : (Condition.compare (.column "RES.ASSIGNEE_") .eq
      (.marks [.text user])).truth db task.row = .holds ↔ task.assignee = some user := by
    rw [Condition.truth]
    exact eq_truth
  have howner : (Condition.compare (.column "RES.OWNER_") .eq
      (.marks [.text user])).truth db task.row = .holds ↔ task.owner = some user := by
    rw [Condition.truth]
    exact eq_truth
  refine ⟨isInvolved user task, rfl, ?_⟩
  rw [involvedCondition, Condition.truth, truths, truths, truths, truths, Truth.join_or_eq_holds,
    hassignee, List.mem_cons, List.mem_singleton, eq_comm (a := Truth.holds), howner,
    eq_comm (a := Truth.holds), truth_userLink he]
  simp [isInvolved, or_assoc]

/-! ## Switches -/

/-- A switch that filters tasks. -/
theorem flag_holds (he : Encodes db task type) {f : Flag} (hf : f.isModifier = false) :
    (flagCondition s f).truth db task.row = .holds ↔ flagOutcome s task f = true := by
  cases f <;> cases hf <;> rw [flagCondition, flagOutcome]
  case unassigned.refl =>
    rw [assignee_isNull, iff_true_right rfl]
  case assigned.refl =>
    rw [assignee_isNull]
    cases task.assignee <;> simp
  case withCandidateGroups.refl =>
    rw [truth_candidateCondition, truth_positiveLink he, Bool.and_eq_true]
    simp [truth_linkHasGroup, List.eq_nil_iff_forall_not_mem]
  case withCandidateUsers.refl =>
    rw [truth_candidateCondition, truth_positiveLink he, Bool.and_eq_true]
    simp [truth_linkHasUser, List.eq_nil_iff_forall_not_mem]
  case withoutCandidateGroups.refl =>
    rw [truth_candidateLink he]
    simp [truth_linkHasGroup, List.isEmpty_iff, List.eq_nil_iff_forall_not_mem]
  case withoutCandidateUsers.refl =>
    rw [truth_candidateLink he]
    simp [truth_linkHasUser, List.isEmpty_iff, List.eq_nil_iff_forall_not_mem]
  case withoutTenantId.refl =>
    have hnull : ((Expr.column "RES.TENANT_ID_").datum db task.row == .null) =
        task.tenantId.isNone := ofText_eq_null
    rw [truth_isNull hnull, iff_true_right rfl]
  case withoutDueDate.refl =>
    have hnull : ((Expr.column "RES.DUE_DATE_").datum db task.row == .null) =
        task.dueDate.isNone := ofDate_eq_null
    rw [truth_isNull hnull, iff_true_right rfl]

end Candidates

/-! ## Groups of compiled queries -/

/-- Columns are not compared through links. -/
theorem TermKind.comparisons_direct (k : TermKind) :
    Comparison.candidate ∉ k.comparisons ∧ Comparison.involved ∉ k.comparisons := by
  cases k <;> decide

/-- Of dimensions that follow no links, the value is compared with a column. -/
theorem dimensionOutcome_column {d : Dimension} (h : d.comparison ∈ d.termKind.comparisons)
    (s : PredicateSet) (t : Term) (groups : List String) (escape : Char) (task : Task) :
    dimensionOutcome s d t groups escape task = compareContent d t escape task := by
  obtain ⟨hcandidate, hinvolved⟩ := d.termKind.comparisons_direct
  unfold dimensionOutcome
  split
  · rename_i hlinks
    rw [hlinks] at h
    exact absurd h hcandidate
  · rename_i hlinks
    rw [hlinks] at h
    exact absurd h hinvolved
  · rfl

/-- A literal value of a sound group. -/
theorem agrees_term {db : Database} {task : Task} {type : Nat → String} {k : Connective}
    {s : PredicateSet} (hs : s.Sound k) (he : Encodes db task type) (c : Criteria) {d : Dimension}
    {t : Term} (ht : t ∈ s.termsOf d) :
    Agrees ((c.termCondition s d t).truth db task.row) (c.termOutcome task s d t) := by
  obtain ⟨hkind, hfilled⟩ := (hs.entry d).fits t ht
  rw [Criteria.termCondition, Criteria.termOutcome]
  rcases d.compared with hd | rfl | ⟨hd, hcomparison⟩
  · exact agrees_candidates he hd hkind _ _
  · cases t <;> cases hkind
    exact agrees_involved he _
  · rw [boundCondition_column hd, dimensionOutcome_column hcomparison]
    exact agrees_column db task hcomparison hkind hfilled

/-- The atoms of a compiled query mean what the evaluation computes.

In every group of a reachable query that compiles, the evaluation of a literal value gives a
result.  The text that is written for the value, read with its parameters, is a condition that holds
over the rows of a task exactly if that result is true.  The same goes for every switch that filters
tasks.  The database may hold any variables and resolve expressions in any way. -/
theorem Criteria.atom_meaning {q : Query} (hq : q.Reachable) {identity : IdentityResolver}
    {config : Config} {c : Criteria} (hc : q.compile identity config = .ok c) {db : Database}
    {task : Task} {type : Nat → String} (he : Encodes db task type) (id : NodeId) :
    let s := (c.tree.node id).predicates
    (∀ d, ∀ t ∈ s.termsOf d,
      let atom := c.termCondition s d t
      atom ∈ c.ownConditions s ∧
        ∃ condition, Condition.read? atom.text atom.params = some condition ∧
          ∃ b, c.termOutcome task s d t = .ok b ∧
            (condition.truth db task.row = .holds ↔ b = true)) ∧
    ∀ f ∈ s.filterFlags,
      let atom := flagCondition s f
      atom ∈ c.ownConditions s ∧
        ∃ condition, Condition.read? atom.text atom.params = some condition ∧
          (condition.truth db task.row = .holds ↔ flagOutcome s task f = true) := by
  obtain ⟨_, _, h⟩ := hq.lays hc
  intro s
  rw [c.ownConditions_eq]
  refine ⟨?_, ?_⟩
  · intro d t ht atom
    have hatom : atom ∈ c.parts id :=
      List.mem_map_of_mem (PredicateSet.mem_filters_term.2 ht)
    exact ⟨hatom, atom, h.read?_part hatom, agrees_term (h.sound_node id) he c ht⟩
  · intro f hf atom
    have hfilter := PredicateSet.mem_filterFlags.1 hf
    have hatom : atom ∈ c.parts id :=
      List.mem_map_of_mem (PredicateSet.mem_filters_flag.2 hfilter)
    exact ⟨hatom, atom, h.read?_part hatom, flag_holds he hfilter.2⟩

/-- Three atoms of one group, which includes assigned tasks: a candidate user with one group, a
pattern that must not match but does, and a switch. -/
theorem Criteria.atom_meaning_built :
    ∃ (q : Query) (c : Criteria) (db : Database) (task : Task),
      q.Reachable ∧ q.compile (fun _ => ["staff"]) {} = .ok c ∧
        Encodes db task (fun _ => "participant") ∧
          let s := (c.tree.node Tree.root).predicates
          (∃ condition,
            Condition.read? ("EXISTS (SELECT 1 FROM ACT_RU_IDENTITYLINK I " ++
                "WHERE I.TASK_ID_ = RES.ID_ AND I.TYPE_ = 'candidate' " ++
                "AND (I.USER_ID_ = ? OR I.GROUP_ID_ IN (?)))")
              [.text "ada", .text "staff"] = some condition ∧
            c.termOutcome task s .candidateUser (.text "ada") = .ok true ∧
              condition.truth db task.row = .holds) ∧
          (∃ condition,
            Condition.read? "RES.NAME_ NOT LIKE ? ESCAPE '\\'" [.text "check%"] = some condition ∧
            c.termOutcome task s .nameNotLike (.text "check%") = .ok false ∧
              condition.truth db task.row ≠ .holds) ∧
          ∃ condition,
            Condition.read? "RES.DUE_DATE_ IS NULL" [] = some condition ∧
            flagOutcome s task .withoutDueDate = true ∧ condition.truth db task.row = .holds := by
  let q := Query.built [.setTerm .candidateUser (.text "ada") rfl,
    .setTerm .nameNotLike (.text "check%") rfl, .setFlag .withoutDueDate,
    .setFlag .includeAssignedTasks]
  let task : Task :=
    { id := "t", name := some "check it", assignee := some "bob", candidateGroups := ["staff"],
      participants := ["eve"] }
  let type : Nat → String := fun _ => "participant"
  let db : Database :=
    { rows := fun _ => task.links type, upper := fun s => s, resolve := fun _ => .null }
  let compiled := (q.compile (fun _ => ["staff"]) {}).toOption
  let predicates (c : Criteria) : PredicateSet := (c.tree.node Tree.root).predicates
  -- each term with the text, the parameters and the outcome of its atom
  let term (d : Dimension) (t : Term) (c : Criteria) :=
    let atom := c.termCondition (predicates c) d t
    ((predicates c).termsOf d, atom.text, atom.params,
      (c.termOutcome task (predicates c) d t).toOption)
  have husers : compiled.map (term .candidateUser (.text "ada")) =
      some ([.text "ada"],
        "EXISTS (SELECT 1 FROM ACT_RU_IDENTITYLINK I " ++
          "WHERE I.TASK_ID_ = RES.ID_ AND I.TYPE_ = 'candidate' " ++
          "AND (I.USER_ID_ = ? OR I.GROUP_ID_ IN (?)))",
        [.text "ada", .text "staff"], some true) := by decide +kernel
  have hpatterns : compiled.map (term .nameNotLike (.text "check%")) =
      some ([.text "check%"], "RES.NAME_ NOT LIKE ? ESCAPE '\\'", [.text "check%"], some false) := by
    decide +kernel
  have hswitch : compiled.map (fun c =>
      let atom := flagCondition (predicates c) .withoutDueDate
      ((predicates c).filterFlags, atom.text, atom.params,
        flagOutcome (predicates c) task .withoutDueDate)) =
      some ([.withoutDueDate], "RES.DUE_DATE_ IS NULL", [], true) := by decide +kernel
  have hq : q.Reachable := Query.reachable_built _
  have he : Encodes db task type := ⟨rfl, fun _ => by decide⟩
  obtain ⟨c, hc, huser⟩ := Option.map_eq_some_iff.1 husers
  rw [hc, Option.map_some, Option.some_inj] at hpatterns hswitch
  rw [toOption_eq_some] at hc
  simp only [term, Prod.mk.injEq, toOption_eq_some] at huser hpatterns hswitch
  obtain ⟨huser, huserText, huserParams, huserOutcome⟩ := huser
  obtain ⟨hpattern, hpatternText, hpatternParams, hpatternOutcome⟩ := hpatterns
  obtain ⟨hflag, hflagText, hflagParams, hflagOutcome⟩ := hswitch
  obtain ⟨hterms, hflags⟩ := Criteria.atom_meaning hq hc he Tree.root
  obtain ⟨-, user, huserRead, b, hb, huserTruth⟩ :=
    hterms .candidateUser (.text "ada") (huser ▸ List.mem_singleton_self _)
  obtain ⟨-, pattern, hpatternRead, b', hb', hpatternTruth⟩ :=
    hterms .nameNotLike (.text "check%") (hpattern ▸ List.mem_singleton_self _)
  obtain ⟨-, dueDate, hflagRead, hflagTruth⟩ :=
    hflags .withoutDueDate (hflag ▸ List.mem_singleton_self _)
  rw [huserText, huserParams] at huserRead
  rw [hpatternText, hpatternParams] at hpatternRead
  rw [hflagText, hflagParams] at hflagRead
  cases hb.symm.trans huserOutcome
  cases hb'.symm.trans hpatternOutcome
  exact ⟨q, c, db, task, hq, hc, he, ⟨user, huserRead, huserOutcome, huserTruth.2 rfl⟩,
    ⟨pattern, hpatternRead, hpatternOutcome, fun h => Bool.false_ne_true (hpatternTruth.1 h)⟩,
    dueDate, hflagRead, hflagOutcome, hflagTruth.2 hflagOutcome⟩

end Worklist
