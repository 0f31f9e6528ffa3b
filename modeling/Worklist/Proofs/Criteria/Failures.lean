import Worklist.Proofs.Criteria.Atoms
import Worklist.Proofs.Criteria.Outcomes

/-!
# When an evaluation fails

The literal values of a reachable query fit their dimensions, so only an expression can make an
evaluation fail: by not being resolved, or by what it is resolved to.

* Values of their kind.  `exists_dimensionOutcome` says that a dimension has an outcome for every
  value of its kind, whatever the task is.
* Values of another kind.  `dimensionOutcome_of_kind_ne` says that a dimension that an expression
  may stand for fails on them, unless it is a filter on candidates that does not see the task.
* `PredicateSet.Fails` lists what an expression fails on, and `expressionOutcome_eq_error` says that
  the list is complete.
* `holds_fails_iff` is the result for reachable queries.
-/

namespace Worklist

/-! ## Values of their kind -/

section Kinds

variable {s : PredicateSet} {d : Dimension} {t : Term} {groups : List String} {escape : Char}
  {task : Task}

/-- A column has an outcome for every value of its kind.  An empty list is no exception. -/
theorem exists_compareContent (hcomparison : d.comparison ∈ d.termKind.comparisons)
    (hkind : t.kind = d.termKind) : ∃ b, compareContent d t escape task = .ok b := by
  have htakes := d.takes task
  rw [← hkind] at hcomparison htakes
  unfold compareContent
  cases t <;> cases hfield : task.content d.field <;> rw [hfield] at htakes <;> cases htakes <;>
    simp only [Term.kind, TermKind.comparisons, List.mem_cons, List.not_mem_nil, or_false]
      at hcomparison
  case text.text.refl x v =>
    cases v with
    | none => exact ⟨_, rfl⟩
    | some s => rcases hcomparison with h | h | h | h <;> rw [h] <;> exact ⟨_, rfl⟩
  case textSet.text.refl xs v =>
    cases v with
    | none => exact ⟨_, rfl⟩
    | some s => rcases hcomparison with h | h <;> rw [h] <;> exact ⟨_, rfl⟩
  case int.int.refl x n => rcases hcomparison with h | h | h <;> rw [h] <;> exact ⟨_, rfl⟩
  case date.date.refl x v =>
    cases v with
    | none => exact ⟨_, rfl⟩
    | some t => rcases hcomparison with h | h | h <;> rw [h] <;> exact ⟨_, rfl⟩
  case suspension.suspended.refl x b => exact ⟨_, rfl⟩
  case delegation.delegation.refl x v => exact ⟨_, rfl⟩

theorem exists_compareCandidates (hd : d.isCandidate = true) (hkind : t.kind = d.termKind) :
    ∃ b, compareCandidates d t groups task = .ok b := by
  cases d <;> cases hd <;> cases t <;> cases hkind <;> exact ⟨_, rfl⟩

theorem dimensionOutcome_candidate (hd : d.isCandidate = true) :
    dimensionOutcome s d t groups escape task =
      if seesCandidates s task then compareCandidates d t groups task else .ok false := by
  cases d <;> cases hd <;> rfl

/-- A dimension has an outcome for every value of its kind. -/
theorem exists_dimensionOutcome (hkind : t.kind = d.termKind) :
    ∃ b, dimensionOutcome s d t groups escape task = .ok b := by
  rcases d.compared with hd | rfl | ⟨-, hcomparison⟩
  · rw [dimensionOutcome_candidate hd]
    split
    · exact exists_compareCandidates hd hkind
    · exact ⟨false, rfl⟩
  · cases t <;> cases hkind
    exact ⟨_, rfl⟩
  · rw [dimensionOutcome_column hcomparison]
    exact exists_compareContent hcomparison hkind

/-! ## Values of another kind -/

/-- A column cannot be compared with a value that it does not take. -/
theorem compareContent_of_not_takes (h : (task.content d.field).takes t.kind = false) :
    compareContent d t escape task = .error (.mismatch d t) := by
  unfold compareContent
  generalize task.content d.field = content at h
  rcases content with (_ | x) | x | (_ | x) | x | x <;> cases t <;> first | rfl | cases h

end Kinds

/-! ## What expressions resolve to -/

namespace Dimension

/-- The kind of value that a text stands for. -/
def textKind (d : Dimension) : TermKind := if d.arity = .set then .textSet else .text

/-- Expressions may stand for texts and for dates. -/
theorem termKind_of_supportsExpression {d : Dimension} (hd : d.supportsExpression = true) :
    d.termKind = .date ∨ d.termKind = d.textKind := by
  cases d <;> cases hd <;> decide

theorem isCandidate_of_date {d : Dimension} (h : d.termKind = .date) : d.isCandidate = false := by
  cases d <;> first | rfl | cases h

theorem textKind_ne_date (d : Dimension) : d.textKind ≠ .date := by
  rw [textKind]
  split <;> decide

theorem termKind_of_set {d : Dimension} (h : d.arity = .set) : d.termKind = d.textKind := by
  rw [termKind, textKind, if_pos h, h]

/-- The filters on users that follow no candidate links and take expressions. -/
def users : List Dimension := [assignee, assigneeLike, assigneeIn, owner, involvedUser]

theorem isCandidate_of_users {d : Dimension} (h : d ∈ users) : d.isCandidate = false := by
  cases d <;> first | rfl | (revert h; decide)

/-- A dimension that an expression may stand for and that compares no dates is about users or
candidates. -/
theorem user_or_candidate {d : Dimension} (hd : d.supportsExpression = true) :
    d.termKind ≠ .date ↔ d ∈ users ∨ d.isCandidate = true := by
  cases d <;> cases hd <;> decide

end Dimension

/-- A column of dates takes nothing else. -/
theorem Task.Content.takes_date_iff {c : Task.Content} {j k : TermKind} (hj : c.takes j = true)
    (hk : c.takes k = true) : j = .date ↔ k = .date := by
  cases c <;> cases j <;> cases hj <;> cases k <;> cases hk <;> decide

section Expressions

variable {s : PredicateSet} {d : Dimension} {t : Term} {groups : List String} {escape : Char}
  {task : Task}

theorem compareCandidates_of_kind_ne (hd : d.isCandidate = true) (hkind : t.kind ≠ d.termKind) :
    compareCandidates d t groups task = .error (.mismatch d t) := by
  cases d <;> cases hd <;> cases t <;> first | rfl | exact absurd rfl hkind

/-- A text where a date is compared, or a date where a text is, fails unless it is not looked at. -/
theorem dimensionOutcome_of_kind_ne (hd : d.supportsExpression = true)
    (ht : t.kind = .date ∨ t.kind = d.textKind) (hkind : t.kind ≠ d.termKind) :
    dimensionOutcome s d t groups escape task =
      if d.isCandidate && !seesCandidates s task then .ok false else .error (.mismatch d t) := by
  have hdate : t.kind = .date ↔ d.termKind ≠ .date := by
    rcases ht with h | h <;> rcases d.termKind_of_supportsExpression hd with h' | h' <;> grind
  rcases d.compared with hcandidate | rfl | ⟨hcandidate, hcomparison⟩
  · rw [dimensionOutcome_candidate hcandidate, hcandidate, Bool.true_and,
      compareCandidates_of_kind_ne hcandidate hkind]
    cases seesCandidates s task <;> rfl
  · have ht := hdate.2 (by decide)
    cases t <;> cases ht
    rfl
  · have htakes : (task.content d.field).takes t.kind = false := by
      rw [← Bool.not_eq_true]
      intro htakes
      have hboth := Task.Content.takes_date_iff htakes (d.takes task)
      rw [hdate] at hboth
      exact iff_not_self hboth.symm
    rw [dimensionOutcome_column hcomparison, compareContent_of_not_takes htakes, hcandidate]
    rfl

end Expressions

/-! ## What expressions fail on -/

/-- What an expression for a dimension of a group fails on, by what it resolves to. -/
inductive PredicateSet.Fails (s : PredicateSet) (task : Task) (d : Dimension) :
    Except BackendError Resolution → Prop where
  /-- The expression cannot be resolved. -/
  | unresolved (e : BackendError) : Fails s task d (.error e)
  /-- A list where one value is compared. -/
  | list (ss : List String) (h : d.arity ≠ .set) : Fails s task d (.ok (.list ss))
  /-- A text where a date is compared. -/
  | text (x : String) (h : d.termKind = .date) : Fails s task d (.ok (.text x))
  /-- A date where a user is compared. -/
  | date (t : Instant) (h : d ∈ Dimension.users) : Fails s task d (.ok (.date t))
  /-- A date where a candidate is compared, and the filter sees the task. -/
  | candidate (t : Instant) (h : d.isCandidate = true)
      (seen : task.assignee = none ∨ s.hasFlag .includeAssignedTasks = true) :
      Fails s task d (.ok (.date t))

/-- In a sound group expressions stand where they may. -/
theorem PredicateSet.Sound.supportsExpression {k : Connective} {s : PredicateSet} (hs : s.Sound k)
    {d : Dimension} {x : String} (h : s.expressionOf? d = some x) :
    d.supportsExpression = true := by
  refine (hs.entry d).allowed ?_
  rw [← expressionOf?, h]
  exact Option.some_ne_none x

theorem seesCandidates_iff {s : PredicateSet} {task : Task} :
    seesCandidates s task = true ↔
      task.assignee = none ∨ s.hasFlag .includeAssignedTasks = true := by
  rw [seesCandidates, Bool.or_eq_true, Option.isNone_iff_eq_none]

namespace Criteria

variable {c : Criteria} {resolve : ExpressionResolver} {task : Task} {s : PredicateSet}
  {d : Dimension}

/-- A text stands for itself or for the list of it. -/
theorem resolvedTerm_text (d : Dimension) (x y : String) :
    ∃ t, resolvedTerm d x (.text y) = .ok t ∧ t.kind = d.textKind := by
  rw [Dimension.textKind]
  unfold resolvedTerm
  cases d.arity
  · exact ⟨.text y, rfl, rfl⟩
  · exact ⟨.textSet [y], rfl, rfl⟩
  · exact ⟨.text y, rfl, rfl⟩

theorem resolvedTerm_list_of_set (h : d.arity = .set) (x : String) (ys : List String) :
    resolvedTerm d x (.list ys) = .ok (.textSet ys) := by
  unfold resolvedTerm
  rw [h]

theorem resolvedTerm_list_of_ne_set (h : d.arity ≠ .set) (x : String) (ys : List String) :
    resolvedTerm d x (.list ys) = .error (.unexpectedList d x) := by
  unfold resolvedTerm
  cases ha : d.arity <;> first | rfl | exact absurd ha h

theorem resolvedTerm_date (d : Dimension) (x : String) (t : Instant) :
    resolvedTerm d x (.date t) = .ok (.date t) := by
  unfold resolvedTerm
  cases d.arity <;> rfl

/-- An expression that resolves is evaluated as the value that it gives. -/
theorem expressionOutcome_of_resolved {x : String} {r : Resolution} {t : Term}
    (hr : resolve x = .ok r) (ht : resolvedTerm d x r = .ok t) :
    c.expressionOutcome resolve task s d x =
      dimensionOutcome s d t [] c.likeEscape task := by
  rw [expressionOutcome, hr, ok_bind, ht, ok_bind]

/-- An expression that gives a value of the kind of its dimension does not fail. -/
theorem expressionOutcome_ne_error {x : String} {r : Resolution} {t : Term}
    (hr : resolve x = .ok r) (ht : resolvedTerm d x r = .ok t) (hkind : t.kind = d.termKind) :
    ¬∃ e, c.expressionOutcome resolve task s d x = .error e := by
  rintro ⟨e, he⟩
  obtain ⟨b, hb⟩ : ∃ b, dimensionOutcome s d t [] c.likeEscape task = .ok b :=
    exists_dimensionOutcome hkind
  rw [expressionOutcome_of_resolved hr ht, hb] at he
  cases he

theorem fails_text_iff (hd : d.supportsExpression = true) {x y : String}
    (hr : resolve x = .ok (.text y)) :
    (∃ e, c.expressionOutcome resolve task s d x = .error e) ↔
      s.Fails task d (.ok (.text y)) := by
  obtain ⟨t, ht, hkind⟩ := resolvedTerm_text d x y
  rcases d.termKind_of_supportsExpression hd with hdate | htext
  · refine iff_of_true ⟨.mismatch d t, ?_⟩ (.text y hdate)
    have hne : t.kind ≠ d.termKind := by
      rw [hkind, hdate]
      exact d.textKind_ne_date
    rw [expressionOutcome_of_resolved hr ht, dimensionOutcome_of_kind_ne hd (.inr hkind) hne,
      d.isCandidate_of_date hdate]
    rfl
  · refine iff_of_false (expressionOutcome_ne_error hr ht (hkind.trans htext.symm)) ?_
    rintro ⟨⟩
    rename_i hdate
    exact d.textKind_ne_date (htext.symm.trans hdate)

theorem fails_list_iff {x : String} {ys : List String} (hr : resolve x = .ok (.list ys)) :
    (∃ e, c.expressionOutcome resolve task s d x = .error e) ↔
      s.Fails task d (.ok (.list ys)) := by
  by_cases hset : d.arity = .set
  · have hkind : (Term.textSet ys).kind = d.termKind := by
      rw [d.termKind_of_set hset, Dimension.textKind, if_pos hset]
      rfl
    have ht := resolvedTerm_list_of_set hset x ys
    refine iff_of_false (expressionOutcome_ne_error hr ht hkind) ?_
    rintro ⟨⟩
    contradiction
  · refine iff_of_true ⟨.unexpectedList d x, ?_⟩ (.list ys hset)
    rw [expressionOutcome, hr, ok_bind, resolvedTerm_list_of_ne_set hset]
    rfl

/-- A date fails for a candidate only if the filter sees the task. -/
theorem fails_date_candidate_iff {t : Instant} (hcandidate : d.isCandidate = true) :
    s.Fails task d (.ok (.date t)) ↔ seesCandidates s task = true := by
  rw [seesCandidates_iff]
  constructor
  · rintro (_ | _ | _ | ⟨_, husers⟩ | ⟨_, -, seen⟩)
    · rw [d.isCandidate_of_users husers] at hcandidate
      cases hcandidate
    · exact seen
  · exact .candidate t hcandidate

theorem fails_date_iff (hd : d.supportsExpression = true) {x : String} {t : Instant}
    (hr : resolve x = .ok (.date t)) :
    (∃ e, c.expressionOutcome resolve task s d x = .error e) ↔
      s.Fails task d (.ok (.date t)) := by
  have ht := resolvedTerm_date d x t
  by_cases hdate : d.termKind = .date
  · refine iff_of_false (expressionOutcome_ne_error hr ht hdate.symm) ?_
    rintro (_ | _ | _ | ⟨_, husers⟩ | ⟨_, hcandidate, -⟩)
    · exact (d.user_or_candidate hd).2 (.inl husers) hdate
    · exact (d.user_or_candidate hd).2 (.inr hcandidate) hdate
  · rw [expressionOutcome_of_resolved hr ht,
      dimensionOutcome_of_kind_ne (t := .date t) hd (.inl rfl) (Ne.symm hdate)]
    rcases (d.user_or_candidate hd).1 hdate with husers | hcandidate
    · rw [d.isCandidate_of_users husers]
      exact iff_of_true ⟨_, rfl⟩ (.date t husers)
    · rw [hcandidate, Bool.true_and, fails_date_candidate_iff hcandidate]
      cases seesCandidates s task with
      | true => exact iff_of_true ⟨_, rfl⟩ rfl
      | false => exact iff_of_false (by simp) Bool.false_ne_true

/-- An expression fails exactly on what `Fails` lists. -/
theorem expressionOutcome_eq_error (hd : d.supportsExpression = true) (x : String) :
    (∃ e, c.expressionOutcome resolve task s d x = .error e) ↔ s.Fails task d (resolve x) := by
  cases hr : resolve x with
  | error e =>
    rw [expressionOutcome, hr]
    exact iff_of_true ⟨e, rfl⟩ (.unresolved e)
  | ok r =>
    cases r with
    | text y => exact fails_text_iff hd hr
    | list ys => exact fails_list_iff hr
    | date t => exact fails_date_iff hd hr

/-! ## Groups and queries -/

/-- The filters of a sound group can be evaluated unless an expression fails. -/
theorem not_evaluates_iff {k : Connective} (hs : s.Sound k) :
    ¬c.Evaluates resolve task s ↔
      ∃ d x, s.expressionOf? d = some x ∧ s.Fails task d (resolve x) := by
  constructor
  · intro hnot
    refine Classical.byContradiction fun hnone => hnot fun x hx => ?_
    cases x with
    | term d t =>
      obtain ⟨hkind, -⟩ := (hs.entry d).fits t (PredicateSet.mem_filters_term.1 hx)
      exact exists_dimensionOutcome hkind
    | expression d x =>
      have hexpression := PredicateSet.mem_filters_expression.1 hx
      have hd := hs.supportsExpression hexpression
      cases houtcome : c.expressionOutcome resolve task s d x with
      | ok b => exact ⟨b, houtcome⟩
      | error e =>
        have hfails := (expressionOutcome_eq_error hd x).1 ⟨e, houtcome⟩
        exact absurd ⟨d, x, hexpression, hfails⟩ hnone
    | flag f => exact ⟨_, rfl⟩
    | onVariable p => exact ⟨_, rfl⟩
  · rintro ⟨d, x, hexpression, hfails⟩ hevaluates
    have hd := hs.supportsExpression hexpression
    obtain ⟨b, hb⟩ := hevaluates _ (PredicateSet.mem_filters_expression.2 hexpression)
    obtain ⟨e, he⟩ := (expressionOutcome_eq_error (c := c) hd x).2 hfails
    rw [filterOutcome, he] at hb
    cases hb

/-- The evaluation of a reachable query that compiles fails on a task exactly if some group has an
expression that fails for its dimension.  A query without expressions never fails. -/
theorem holds_fails_iff {q : Query} (hq : q.Reachable) {identity : IdentityResolver}
    {config : Config} (hc : q.compile identity config = .ok c) (resolve : ExpressionResolver)
    (task : Task) :
    ((∃ e, c.holds resolve task = .error e) ↔
      ∃ id < c.tree.size, ∃ d x, (c.tree.node id).predicates.expressionOf? d = some x ∧
        (c.tree.node id).predicates.Fails task d (resolve x)) ∧
    ((∀ id < c.tree.size, ∀ d, (c.tree.node id).predicates.expressionOf? d = none) →
      ∃ b, c.holds resolve task = .ok b) := by
  obtain ⟨s, f, h⟩ := hq.lays hc
  have hfails : (∃ e, c.holds resolve task = .error e) ↔
      ∃ id < c.tree.size, ∃ d x, (c.tree.node id).predicates.expressionOf? d = some x ∧
        (c.tree.node id).predicates.Fails task d (resolve x) := by
    rw [holds_eq_error h.tree, allEvaluate_iff, ← h.tree]
    simp only [Classical.not_forall, exists_prop, not_evaluates_iff (h.sound_node _)]
  refine ⟨hfails, fun hnone => ?_⟩
  cases hholds : c.holds resolve task with
  | ok b => exact ⟨b, rfl⟩
  | error e =>
    obtain ⟨id, hid, d, x, hexpression, -⟩ := hfails.1 ⟨e, hholds⟩
    rw [hnone id hid d] at hexpression
    cases hexpression

/-- A date for a candidate group, in a group that includes assigned tasks, and a task that is
assigned. -/
theorem holds_fails_iff_built :
    ∃ (q : Query) (c : Criteria) (resolve : ExpressionResolver) (task : Task), q.Reachable ∧
      q.compile (fun _ => []) {} = .ok c ∧ task.assignee = some "ada" ∧
        ∃ e, c.holds resolve task = .error e := by
  let q := Query.built [.setTerm .assignee (.text "ada") rfl, .openGroup .or,
    .setExpression .candidateGroup "now" rfl, .setFlag .includeAssignedTasks, .closeGroup .or]
  let resolve : ExpressionResolver := fun _ => .ok (.date Instant.epoch)
  let task : Task := { id := "t", assignee := some "ada" }
  have hok : (q.compile (fun _ => []) {}).isOk = true := by decide +kernel
  have hgroup : 1 < q.tree.size ∧
      (q.tree.node 1).predicates.expressionOf? .candidateGroup = some "now" ∧
        (q.tree.node 1).predicates.hasFlag .includeAssignedTasks = true := by decide +kernel
  have hq : q.Reachable := Query.reachable_built _
  cases hc : q.compile (fun _ => []) {} with
  | error e =>
    rw [hc] at hok
    cases hok
  | ok c =>
    obtain ⟨-, -, htree, -⟩ := Query.compile_eq_ok hc
    rw [← htree] at hgroup
    obtain ⟨hsize, hexpression, hflag⟩ := hgroup
    obtain ⟨hfails, -⟩ := holds_fails_iff hq hc resolve task
    exact ⟨q, c, resolve, task, hq, hc, rfl,
      hfails.2 ⟨1, hsize, .candidateGroup, "now", hexpression, .candidate _ rfl (.inr hflag)⟩⟩

end Criteria

end Worklist
