import Worklist.Proofs.Outcome
import Worklist.Query.Merge

/-!
# What calls do

Each call on a query that succeeds is one of five steps.  `Query.Step` lists
them with everything that the call checks, and `Query.step_of_apply` reads the
step off a successful call, so that no proof about reachable queries has to
open the calls themselves.  `PredicateSet.Step` does the same for the calls
that change the filters of a group, and `Query.extend_eq_ok` for merges.
`Query.built` runs a list of calls from the start, and `Query.call` makes one
call that may fail.
-/

namespace Worklist

/-- What a call can do to the filters of a group with connective `c`. -/
inductive PredicateSet.Step (c : Connective) (s : PredicateSet) : PredicateSet → Prop where
  | term {d : Dimension} {t : Term} (fits : t.kind = d.termKind) (filled : t ≠ .textSet [])
      (checked : s.checkCandidates c false d = .ok ()) : Step c s (s.setTerm d t c)
  | expression {d : Dimension} (e : String) (allowed : d.supportsExpression = true)
      (checked : s.checkCandidates c true d = .ok ()) : Step c s (s.setExpression d e)
  | flag {f : Flag} (checked : f = .includeAssignedTasks → s.hasCandidatePredicate = true) :
      Step c s (s.setFlag f)
  | onVariable (p : VariablePredicate) : Step c s (s.addVariable p)

theorem PredicateSet.checkAssignedTasks_eq_ok {s : PredicateSet} :
    s.checkAssignedTasks = .ok () ↔ s.hasCandidatePredicate = true := by
  rw [checkAssignedTasks]
  split <;> simp_all

/-- What a call can do to a query. -/
inductive Query.Step (q : Query) : Query → Prop where
  | opened (c : Connective) : Step q (q.openGroup c)
  | closed {parent : NodeId} (inside : q.group.parent = some parent) :
      Step q { q with current := parent }
  | changed (f : PredicateSet → PredicateSet)
      (step : PredicateSet.Step q.group.connective q.predicates (f q.predicates)) :
      Step q (q.modify f)
  | sorted (p : SortProperty) (atRoot : q.isAtRoot = true) (complete : q.pendingKey? = none) :
      Step q { q with sortKeys := q.sortKeys ++ [⟨p, none⟩] }
  | directed {key : SortKey} (d : Direction) (pending : q.pendingKey? = some key) :
      Step q { q with sortKeys := q.sortKeys.dropLast ++ [⟨key.property, some d⟩] }

namespace Query

variable {q r : Query}

/-! ## Each call -/

theorem step_of_closeGroup {c : Connective} (h : q.closeGroup c = .ok r) : q.Step r := by
  rw [closeGroup] at h
  split at h
  · cases h
  · rename_i parent hparent
    split at h
    · cases h
      exact .closed hparent
    · cases h

theorem step_of_setTerm {d : Dimension} {t : Term} (fits : t.kind = d.termKind)
    (h : q.setTerm d t = .ok r) : q.Step r := by
  rw [setTerm] at h
  split at h
  · cases h
  · rename_i hfilled
    obtain ⟨⟨⟩, hchecked, h⟩ := bind_eq_ok.1 h
    cases h
    exact .changed _ (.term fits hfilled hchecked)

theorem step_of_setExpression {d : Dimension} {e : String} (allowed : d.supportsExpression = true)
    (h : q.setExpression d e = .ok r) : q.Step r := by
  obtain ⟨⟨⟩, hchecked, h⟩ := bind_eq_ok.1 h
  cases h
  exact .changed _ (.expression e allowed hchecked)

theorem step_of_setFlag {f : Flag} (h : q.setFlag f = .ok r) : q.Step r := by
  rw [setFlag] at h
  split at h
  · obtain ⟨⟨⟩, hchecked, h⟩ := bind_eq_ok.1 h
    cases h
    exact .changed _ (.flag fun _ => PredicateSet.checkAssignedTasks_eq_ok.1 hchecked)
  · rename_i hf
    cases h
    exact .changed _ (.flag fun hf' => absurd hf' hf)

theorem step_of_orderBy {p : SortProperty} (h : q.orderBy p = .ok r) : q.Step r := by
  rw [orderBy] at h
  split at h
  · cases h
  · rename_i hroot
    split at h
    · cases h
    · rename_i hcomplete
      cases h
      exact .sorted p (by simpa using hroot) hcomplete

theorem step_of_setDirection {d : Direction} (h : q.setDirection d = .ok r) : q.Step r := by
  rw [setDirection] at h
  split at h
  · rename_i key hpending
    cases h
    exact .directed d hpending
  · cases h

/-- Every call that succeeds is a step. -/
theorem step_of_apply {e : Edit} (h : q.apply e = .ok r) : q.Step r := by
  cases e with
  | openGroup c =>
    cases h
    exact .opened c
  | closeGroup c => exact step_of_closeGroup h
  | setTerm d t fits => exact step_of_setTerm fits h
  | setExpression d e allowed => exact step_of_setExpression allowed h
  | setFlag f => exact step_of_setFlag h
  | addVariable p =>
    cases h
    exact .changed _ (.onVariable p)
  | compareVariable name operator raw scope isLocal =>
    obtain ⟨p, -, h⟩ := bind_eq_ok.1 h
    cases h
    exact .changed _ (.onVariable p)
  | orderBy p => exact step_of_orderBy h
  | setDirection d => exact step_of_setDirection h

/-! ## Lists of calls -/

/-- The query that calls build from the start; a list with a call that fails builds nothing. -/
def built (edits : List Edit) : Query := (edits.foldlM Query.apply .new).toOption.getD .new

theorem Reachable.foldlM {q r : Query} {edits : List Edit} (h : q.Reachable)
    (hr : edits.foldlM Query.apply q = .ok r) : r.Reachable := by
  induction edits generalizing q with
  | nil =>
    cases hr
    exact h
  | cons e edits ih =>
    obtain ⟨next, hnext, hr⟩ := bind_eq_ok.1 hr
    exact ih (.apply e h hnext) hr

theorem reachable_built (edits : List Edit) : (built edits).Reachable := by
  rw [built]
  cases h : edits.foldlM Query.apply .new with
  | error e => exact .new
  | ok r => exact Reachable.new.foldlM h

/-- The query after a call.  A call that fails leaves it as it was. -/
def call (q : Query) (e : Edit) : Query := (q.apply e).toOption.getD q

theorem call_of_ok {e : Edit} (h : q.apply e = .ok r) : q.call e = r := by
  rw [call, h]
  rfl

theorem call_of_error {e : Edit} {err : QueryError} (h : q.apply e = .error err) :
    q.call e = q := by
  rw [call, h]
  rfl

theorem Reachable.call (h : q.Reachable) (e : Edit) : (q.call e).Reachable := by
  cases hr : q.apply e with
  | error err => rwa [call_of_error hr]
  | ok r => rw [call_of_ok hr]; exact .apply e h hr

theorem Reachable.foldl_call (h : q.Reachable) (edits : List Edit) :
    (edits.foldl Query.call q).Reachable := by
  induction edits generalizing q with
  | nil => exact h
  | cons e edits ih => exact ih (h.call e)

/-! ## Merges -/

/-- A merge succeeds if both queries are at their root and their root groups agree. -/
theorem extend_eq_ok {base ext : Query} :
    base.extend ext = .ok r ↔
      base.isAtRoot = true ∧ ext.isAtRoot = true ∧ ∃ s,
        (base.tree.node Tree.root).predicates.merge (ext.tree.node Tree.root).predicates = .ok s ∧
          r = ⟨base.tree.join ext.tree s, Tree.root, mergeSortKeys base.sortKeys ext.sortKeys⟩ := by
  rw [extend]
  split
  · rename_i hroot
    constructor
    · intro h
      cases h
    · rintro ⟨hb, he, -⟩
      rw [hb, he] at hroot
      simp at hroot
  · rename_i hroot
    have hboth : base.isAtRoot = true ∧ ext.isAtRoot = true := by simpa using hroot
    constructor
    · intro h
      obtain ⟨s, hs, h⟩ := bind_eq_ok.1 h
      cases h
      exact ⟨hboth.1, hboth.2, s, hs, rfl⟩
    · rintro ⟨-, -, s, hs, rfl⟩
      exact bind_eq_ok.2 ⟨s, hs, rfl⟩

end Query

end Worklist
