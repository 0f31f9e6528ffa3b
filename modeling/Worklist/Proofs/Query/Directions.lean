import Worklist.Proofs.Criteria.Checked
import Worklist.Proofs.Query.Extend

/-!
# Directions of sort keys

A sort key is added without a direction and gets one from a later call.  Such calls only look at
the last key, so a key that waits for its direction must stay the last one.  Calls see to that.  A
merge does not: it puts the keys of the extension behind a key of the base that waits.

* `Query.Settled` says that no key but the last one waits.  `Step.settled_iff` is the step: a call
  changes nothing about it, for better or worse.
* `exists_mergeSortKeys` gives the keys that a merge adds, and `Query.ReadyFor` says that they do
  not stand behind a key that waits.  `settled_of_readyFor` and `not_settled_of_not_readyFor` are
  the two cases of a merge.
* `directions_recoverable` is the result for queries whose merges are all of the first kind, with
  what becomes of a merge of the second kind.
* `exists_stranded` is such a merge.
-/

namespace Worklist

/-! ## Lists of sort keys -/

/-- What holds of all members but the last holds of every member that another one follows. -/
theorem forall_mem_dropLast_iff {α : Type} {P : α → Prop} {xs : List α} :
    (∀ x ∈ xs.dropLast, P x) ↔ xs.Pairwise fun x _ => P x := by
  rcases List.eq_nil_or_concat xs with rfl | ⟨ys, y, rfl⟩
  · simp
  · rw [List.concat_eq_append, List.dropLast_concat, List.pairwise_append]
    constructor
    · intro h
      exact ⟨List.pairwise_of_forall_mem_list fun x hx _ _ => h x hx,
        List.pairwise_singleton _ y, fun x hx _ _ => h x hx⟩
    · rintro ⟨-, -, h⟩ x hx
      exact h x hx y (List.mem_singleton_self y)

/-- A merge keeps the keys of the base and adds some of the extension behind them, in their order.
It adds none exactly if the base sorts by every property of the extension. -/
theorem exists_mergeSortKeys (base ext : List SortKey) :
    ∃ added, mergeSortKeys base ext = base ++ added ∧ added.Sublist ext ∧
      (added = [] ↔ ∀ key ∈ ext, ∃ k ∈ base, k.property = key.property) := by
  induction ext generalizing base with
  | nil => exact ⟨[], (List.append_nil base).symm, .slnil, iff_of_true rfl (List.forall_mem_nil _)⟩
  | cons key ext ih =>
    rw [mergeSortKeys_cons, addSortKey]
    split
    · rename_i hany
      obtain ⟨added, heq, hsub, hnil⟩ := ih base
      obtain ⟨k, hk, hkey⟩ := List.any_eq_true.1 hany
      refine ⟨added, heq, hsub.cons key, ?_⟩
      rw [hnil, List.forall_mem_cons]
      exact (and_iff_right ⟨k, hk, eq_of_beq hkey⟩).symm
    · rename_i hany
      obtain ⟨added, heq, hsub, -⟩ := ih (base ++ [key])
      refine ⟨key :: added, ?_, hsub.cons_cons key, iff_of_false (List.cons_ne_nil _ _) ?_⟩
      · rw [heq, List.append_assoc, List.singleton_append]
      · intro h
        obtain ⟨k, hk, hkey⟩ := h key List.mem_cons_self
        exact hany (List.any_eq_true.2 ⟨k, hk, beq_iff_eq.2 hkey⟩)

namespace Query

variable {q r base ext merged : Query} {d : Direction}

/-! ## The key that waits -/

theorem pendingKey?_eq_some {key : SortKey} :
    q.pendingKey? = some key ↔
      (∃ earlier, q.sortKeys = earlier ++ [key]) ∧ key.direction = none := by
  rw [pendingKey?, Option.filter_eq_some_iff, List.getLast?_eq_some_iff,
    Option.isNone_iff_eq_none]

/-- No sort key but the last one waits for its direction. -/
def Settled (q : Query) : Prop := ∀ key ∈ q.sortKeys.dropLast, key.direction ≠ none

/-- If the last key does not wait either, every key has its direction. -/
theorem forall_directed_iff :
    (∀ key ∈ q.sortKeys, key.direction ≠ none) ↔ q.Settled ∧ q.pendingKey? = none := by
  rw [Settled, Option.eq_none_iff_forall_ne_some]
  constructor
  · intro h
    refine ⟨fun key hkey => h key (List.dropLast_subset _ hkey), fun key hpending => ?_⟩
    obtain ⟨⟨earlier, heq⟩, hnone⟩ := pendingKey?_eq_some.1 hpending
    exact h key (by rw [heq]; exact List.mem_append_right _ (List.mem_singleton_self key)) hnone
  · rintro ⟨hearlier, hpending⟩ key hkey hnone
    rcases List.eq_nil_or_concat q.sortKeys with heq | ⟨earlier, last, heq⟩
    · rw [heq] at hkey
      cases hkey
    · rw [List.concat_eq_append] at heq
      rw [heq, List.dropLast_concat] at hearlier
      rw [heq, List.mem_append, List.mem_singleton] at hkey
      rcases hkey with hkey | rfl
      · exact hearlier key hkey hnone
      · exact hpending key (pendingKey?_eq_some.2 ⟨⟨earlier, heq⟩, hnone⟩)

/-! ## Calls -/

/-- A call neither makes a key wait in front of another one nor helps a key that does. -/
theorem Step.settled_iff (h : q.Step r) : r.Settled ↔ q.Settled := by
  cases h with
  | opened c => exact Iff.rfl
  | closed inside => exact Iff.rfl
  | changed f step => exact Iff.rfl
  | sorted p atRoot complete =>
    rw [Settled, List.dropLast_concat, forall_directed_iff, and_iff_left complete]
  | directed d pending =>
    rw [Settled, List.dropLast_concat]
    exact Iff.rfl

theorem settled_call (q : Query) (e : Edit) : (q.call e).Settled ↔ q.Settled := by
  cases h : q.apply e with
  | error err => rw [call_of_error h]
  | ok r =>
    rw [call_of_ok h]
    exact (step_of_apply h).settled_iff

theorem settled_foldl_call (q : Query) (edits : List Edit) :
    (edits.foldl call q).Settled ↔ q.Settled := by
  induction edits generalizing q with
  | nil => exact Iff.rfl
  | cons e edits ih => exact (ih (q.call e)).trans (settled_call q e)

/-- The call for a direction succeeds if a key waits, and then gives that key its direction. -/
theorem setDirection_eq_ok :
    q.setDirection d = .ok r ↔
      ∃ key, q.pendingKey? = some key ∧
        r = { q with sortKeys := q.sortKeys.dropLast ++ [⟨key.property, some d⟩] } := by
  rw [setDirection]
  cases q.pendingKey? with
  | none => simp
  | some key => simp [eq_comm]

/-- One call for a direction is all that a settled query lacks. -/
theorem Settled.exists_setDirection (h : q.Settled)
    (hwaits : ¬∀ key ∈ q.sortKeys, key.direction ≠ none) (d : Direction) :
    ∃ r, q.setDirection d = .ok r ∧ ∀ key ∈ r.sortKeys, key.direction ≠ none := by
  rw [forall_directed_iff, and_iff_right h] at hwaits
  obtain ⟨key, hkey⟩ := Option.ne_none_iff_exists'.1 hwaits
  refine ⟨_, setDirection_eq_ok.2 ⟨key, hkey, rfl⟩, fun k hk => ?_⟩
  rcases List.mem_append.1 hk with hk | hk
  · exact h k hk
  · rw [List.mem_singleton] at hk
    subst hk
    simp

/-! ## Merges -/

/-- None of the sort keys of the base waits, or the extension sorts by nothing new. -/
def ReadyFor (base ext : Query) : Prop :=
  base.pendingKey? = none ∨ ∀ key ∈ ext.sortKeys, ∃ k ∈ base.sortKeys, k.property = key.property

theorem sortKeys_of_extend (h : base.extend ext = .ok merged) :
    merged.sortKeys = mergeSortKeys base.sortKeys ext.sortKeys := by
  obtain ⟨-, -, s, -, rfl⟩ := extend_eq_ok.1 h
  rfl

theorem settled_of_readyFor (hb : base.Settled) (he : ext.Settled)
    (h : base.extend ext = .ok merged) (hready : base.ReadyFor ext) : merged.Settled := by
  obtain ⟨added, heq, hsub, hnil⟩ := exists_mergeSortKeys base.sortKeys ext.sortKeys
  rw [Settled, sortKeys_of_extend h, heq]
  rcases hready with hready | hready
  · -- the added keys are settled, because the extension is
    rw [forall_mem_dropLast_iff, List.pairwise_append]
    refine ⟨forall_mem_dropLast_iff.1 hb, (forall_mem_dropLast_iff.1 he).sublist hsub, ?_⟩
    intro key hkey _ _
    exact forall_directed_iff.2 ⟨hb, hready⟩ key hkey
  · rw [hnil.2 hready, List.append_nil]
    exact hb

theorem not_settled_of_not_readyFor (h : base.extend ext = .ok merged)
    (hready : ¬base.ReadyFor ext) : ¬merged.Settled := by
  obtain ⟨added, heq, -, hnil⟩ := exists_mergeSortKeys base.sortKeys ext.sortKeys
  rw [ReadyFor, not_or, ← hnil] at hready
  obtain ⟨hwaits, hadded⟩ := hready
  obtain ⟨key, hkey⟩ := Option.ne_none_iff_exists'.1 hwaits
  obtain ⟨⟨earlier, hlast⟩, hnone⟩ := pendingKey?_eq_some.1 hkey
  intro hsettled
  rw [Settled, sortKeys_of_extend h, heq, List.dropLast_append_of_ne_nil hadded] at hsettled
  refine hsettled key (List.mem_append_left _ ?_) hnone
  rw [hlast]
  exact List.mem_append_right _ (List.mem_singleton_self key)

/-- The queries that calls and merges can build if no merge puts a sort key behind one that waits
for its direction. -/
inductive Orderly : Query → Prop where
  | new : Orderly .new
  | apply {q r : Query} (e : Edit) : Orderly q → q.apply e = .ok r → Orderly r
  | extend {base ext r : Query} :
      Orderly base → Orderly ext → base.ReadyFor ext → base.extend ext = .ok r → Orderly r

theorem Orderly.foldlM {edits : List Edit} (h : q.Orderly)
    (hr : edits.foldlM Query.apply q = .ok r) : r.Orderly := by
  induction edits generalizing q with
  | nil =>
    cases hr
    exact h
  | cons e edits ih =>
    obtain ⟨next, hnext, hr⟩ := bind_eq_ok.1 hr
    exact ih (.apply e h hnext) hr

theorem orderly_built (edits : List Edit) : (built edits).Orderly := by
  rw [built]
  cases h : edits.foldlM Query.apply .new with
  | error e => exact .new
  | ok r => exact Orderly.new.foldlM h

theorem Orderly.settled (h : q.Orderly) : q.Settled := by
  induction h with
  | new => exact List.forall_mem_nil _
  | apply e _ hr ih => exact (step_of_apply hr).settled_iff.2 ih
  | extend _ _ hready hr ihb ihe => exact settled_of_readyFor ihb ihe hr hready

/-! ## The result -/

theorem exists_error_of_not_settled (h : ¬q.Settled) :
    ∃ e, Check.run q .orderingDirections = .error e := by
  cases hrun : Check.run q .orderingDirections with
  | error e => exact ⟨e, rfl⟩
  | ok _ => exact absurd (forall_directed_iff.1 (run_orderingDirections_eq_ok.1 hrun)).1 h

/-- A direction that is missing can be given, as long as no merge puts a sort key behind one that
waits for its direction.

In every query that is built so, every sort key but the last has its direction; and if the check of
the directions refuses the query, one call for either direction succeeds and makes the check pass.
A merge of the other kind ends in a query that the check refuses after any calls. -/
theorem directions_recoverable (h : q.Orderly) :
    (∀ key ∈ q.sortKeys.dropLast, key.direction ≠ none) ∧
    (∀ e, Check.run q .orderingDirections = .error e → ∀ d, ∃ r,
      q.apply (.setDirection d) = .ok r ∧ Check.run r .orderingDirections = .ok ()) ∧
    (∀ ext merged, q.extend ext = .ok merged → ¬q.ReadyFor ext →
      ∀ edits : List Edit, ∃ e, Check.run (edits.foldl call merged) .orderingDirections = .error e) := by
  refine ⟨h.settled, ?_, ?_⟩
  · intro e he d
    have hwaits : ¬∀ key ∈ q.sortKeys, key.direction ≠ none := by
      intro hall
      rw [run_orderingDirections_eq_ok.2 hall] at he
      cases he
    obtain ⟨r, hr, hall⟩ := h.settled.exists_setDirection hwaits d
    exact ⟨r, hr, run_orderingDirections_eq_ok.2 hall⟩
  · intro ext merged hm hready edits
    refine exists_error_of_not_settled fun hsettled => ?_
    exact not_settled_of_not_readyFor hm hready ((settled_foldl_call merged edits).1 hsettled)

/-- A merge of two queries that both sort by the name, the base without a direction for it; and one
with a query that sorts by the due date. -/
theorem directions_recoverable_built :
    ∃ q ext merged : Query, q.Orderly ∧
      (∃ e, Check.run q .orderingDirections = .error e) ∧
      (∃ r, q.apply (.setDirection .ascending) = .ok r ∧
        Check.run r .orderingDirections = .ok ()) ∧
      q.extend ext = .ok merged ∧ ¬q.ReadyFor ext ∧
        ∀ edits : List Edit, ∃ e, Check.run (edits.foldl call merged) .orderingDirections =
          .error e := by
  let base := built [.orderBy .priority, .setDirection .descending, .orderBy .name]
  let same := built [.orderBy .name, .setDirection .ascending]
  let other := built [.orderBy .dueDate, .setDirection .ascending]
  have hsame : base.ReadyFor same := by
    refine .inr ?_
    decide +kernel
  have hother : ¬base.ReadyFor other := by
    rintro (hnone | hall)
    · revert hnone
      decide +kernel
    · revert hall
      decide +kernel
  have hbase : (base.extend same).toOption = some base := by decide +kernel
  have hmerged : ((base.extend other).toOption.map fun _ => ()) = some () := by decide +kernel
  obtain ⟨merged, hmerged, -⟩ := Option.map_eq_some_iff.1 hmerged
  rw [toOption_eq_some] at hbase hmerged
  have horderly : base.Orderly :=
    .extend (orderly_built _) (orderly_built _) hsame hbase
  obtain ⟨-, hrepair, hmerge⟩ := directions_recoverable horderly
  have hrefused : Check.run base .orderingDirections = .error (.pendingDirection .name) := rfl
  exact ⟨base, other, merged, horderly, ⟨_, hrefused⟩, hrepair _ hrefused .ascending, hmerged,
    hother, hmerge other merged hmerged hother⟩

/-- Two queries that sort by one property each, the base without a direction.  In the query that
they are merged to the first key waits and is not the last one, and no direction is accepted. -/
theorem exists_stranded :
    ∃ base ext merged : Query, (base.Reachable ∧ ext.Reachable ∧ merged.Reachable) ∧
      base.extend ext = .ok merged ∧ merged.isAtRoot = true ∧
        merged.sortKeys = [⟨.taskId, none⟩, ⟨.name, some .ascending⟩] ∧
          Check.run merged .orderingDirections = .error (.pendingDirection .taskId) ∧
            ∀ d, merged.apply (.setDirection d) = .error (.strayDirection d) := by
  let base := built [.orderBy .taskId]
  let ext := built [.orderBy .name, .setDirection .ascending]
  let merged : Query := { Query.new with sortKeys := [⟨.taskId, none⟩, ⟨.name, some .ascending⟩] }
  have hmerged : (base.extend ext).toOption = some merged := by decide +kernel
  rw [toOption_eq_some] at hmerged
  have hb : base.Reachable := reachable_built _
  have he : ext.Reachable := reachable_built _
  exact ⟨base, ext, merged, ⟨hb, he, .extend hb he hmerged⟩, hmerged, rfl, rfl, rfl, fun _ => rfl⟩

end Query

end Worklist
