import Worklist.Proofs.Query.Merged
import Worklist.Proofs.Tree.Change

/-!
# Including assigned tasks afterwards

Calls write to the current group, so assigned tasks are included in a group while it is open.  The
same query results if the call is put off: a query in which assigned tasks are included in one of
its groups, open or closed, is reachable again.

* `PredicateSet.withAssignedTasks` is the change of one group, and `filters_withAssignedTasks` says
  that it adds no filter.
* `Step.exists_apply` is the converse of `step_of_apply`, and `Step.withAssignedTasks` exchanges a
  step with the change of a group that the step does not lead to.
* `Reachable.withAssignedTasks` is the induction over calls and merges: the change is made right
  after the last call that leads to the group, or in the query that a merge takes the group from.
* `exists_compile_withAssignedTasks` says that the changed query still compiles.
-/

namespace Worklist

/-! ## One group -/

namespace PredicateSet

/-- Includes assigned tasks if there is a filter on candidates that they can be included in. -/
def withAssignedTasks (s : PredicateSet) : PredicateSet :=
  if s.hasCandidatePredicate then s.setFlag .includeAssignedTasks else s

/-- The switch stays on if it was. -/
theorem hasFlag_withAssignedTasks_of_hasFlag {s : PredicateSet} {f : Flag} (h : s.hasFlag f = true) :
    s.withAssignedTasks.hasFlag f = true := by
  rw [withAssignedTasks]
  split
  · rw [hasFlag_setFlag, h, Bool.or_true]
  · exact h

theorem hasFlag_withAssignedTasks {s : PredicateSet} {f : Flag} (h : f ≠ .includeAssignedTasks) :
    s.withAssignedTasks.hasFlag f = s.hasFlag f := by
  rw [withAssignedTasks]
  split
  · rw [hasFlag_setFlag, decide_eq_false h.symm, Bool.false_or]
  · rfl

/-- Nothing but the switch changes. -/
theorem withAssignedTasks_eq (s : PredicateSet) :
    ∃ flags, s.withAssignedTasks = { s with flags := flags } := by
  rw [withAssignedTasks]
  split
  · exact ⟨_, rfl⟩
  · exact ⟨s.flags, rfl⟩

/-- A modifier is no filter. -/
theorem filters_withAssignedTasks (s : PredicateSet) : s.withAssignedTasks.filters = s.filters := by
  have hflags : ∀ f : Flag, (s.withAssignedTasks.hasFlag f && !f.isModifier) =
      (s.hasFlag f && !f.isModifier) := by
    intro f
    by_cases hf : f = .includeAssignedTasks
    · subst hf
      rw [Flag.isModifier, Bool.not_true, Bool.and_false, Bool.and_false]
    · rw [hasFlag_withAssignedTasks hf]
  obtain ⟨flags, heq⟩ := s.withAssignedTasks_eq
  rw [filters, filters]
  simp only [hflags]
  rw [heq]
  rfl

end PredicateSet

namespace Query

open PredicateSet

variable {q r base ext merged : Query}

/-- The query in which assigned tasks are also included in a group, if that is allowed there. -/
def withAssignedTasks (q : Query) (id : NodeId) : Query :=
  { q with tree := q.tree.modifyPredicates id PredicateSet.withAssignedTasks }

/-! ## The current group -/

/-- The call on the current group. -/
theorem apply_includeAssignedTasks (q : Query) :
    q.apply (.setFlag .includeAssignedTasks) =
      if q.predicates.hasCandidatePredicate then .ok (q.withAssignedTasks q.current)
      else .error .noCandidateFilter := by
  rw [apply, setFlag, if_pos rfl, checkAssignedTasks]
  split
  · rename_i hallowed
    rw [ok_bind]
    refine congrArg Except.ok (modify_congr (g := PredicateSet.withAssignedTasks) ?_)
    rw [PredicateSet.withAssignedTasks, if_pos hallowed]
  · rfl

theorem Reachable.withAssignedTasks_current (h : q.Reachable) :
    (q.withAssignedTasks q.current).Reachable := by
  by_cases hallowed : q.predicates.hasCandidatePredicate = true
  · refine .apply (.setFlag .includeAssignedTasks) h ?_
    rw [apply_includeAssignedTasks, if_pos hallowed]
  · have hsame : q.withAssignedTasks q.current = q.modify id := by
      refine modify_congr ?_
      rw [PredicateSet.withAssignedTasks, if_neg hallowed]
      rfl
    have hid : q.modify id = q := by
      rw [modify]
      congr 1
      exact Tree.ext_toList (by rw [Tree.toList_modifyPredicates]; exact List.modify_id ..)
    rw [hsame, hid]
    exact h

/-! ## Steps elsewhere -/

/-- Every step is a call that succeeds. -/
theorem Step.exists_apply (h : q.Step r) : ∃ e, q.apply e = .ok r := by
  cases h with
  | opened c => exact ⟨.openGroup c, rfl⟩
  | closed inside =>
    refine ⟨.closeGroup q.group.connective, ?_⟩
    rw [apply, closeGroup, inside]
    exact if_pos rfl
  | changed f step =>
    generalize hchanged : f q.predicates = s at step
    have hmodify : ∀ g : PredicateSet → PredicateSet, s = g q.predicates → q.modify g = q.modify f :=
      fun g hg => modify_congr (hg.symm.trans hchanged.symm)
    cases step with
    | term fits filled checked =>
      refine ⟨.setTerm _ _ fits, ?_⟩
      rw [apply, setTerm, if_neg filled, checked]
      exact congrArg Except.ok (hmodify _ rfl)
    | expression e allowed checked =>
      refine ⟨.setExpression _ e allowed, ?_⟩
      rw [apply, setExpression, checked]
      exact congrArg Except.ok (hmodify _ rfl)
    | @flag g checked =>
      refine ⟨.setFlag g, ?_⟩
      rw [apply, setFlag]
      split
      · rename_i hinclude
        rw [checkAssignedTasks_eq_ok.2 (checked hinclude)]
        exact congrArg Except.ok (hmodify _ rfl)
      · exact congrArg Except.ok (hmodify _ rfl)
    | onVariable p => exact ⟨.addVariable p, congrArg Except.ok (hmodify _ rfl)⟩
  | sorted p atRoot complete =>
    refine ⟨.orderBy p, ?_⟩
    rw [apply, orderBy, atRoot, complete]
    rfl
  | directed d pending =>
    refine ⟨.setDirection d, ?_⟩
    rw [apply, setDirection, pending]

theorem withAssignedTasks_openGroup {id : Nat} (h : id ≠ q.tree.size) (c : Connective) :
    (q.openGroup c).withAssignedTasks id = (q.withAssignedTasks id).openGroup c := by
  rw [withAssignedTasks, openGroup, openGroup, withAssignedTasks, Tree.size_modifyPredicates,
    Tree.addChild_modifyPredicates _ h]

theorem withAssignedTasks_modify {id : Nat} (h : q.current ≠ id) (f : PredicateSet → PredicateSet) :
    (q.modify f).withAssignedTasks id = (q.withAssignedTasks id).modify f := by
  rw [withAssignedTasks, modify, modify, withAssignedTasks, Tree.modifyPredicates_comm _ h]

/-- A step and the change of a group that it does not lead to can be made in any order. -/
theorem Step.withAssignedTasks {id : Nat} (h : q.Step r) (hid : id ≠ r.current) :
    (q.withAssignedTasks id).Step (r.withAssignedTasks id) := by
  cases h with
  | opened c =>
    rw [withAssignedTasks_openGroup hid]
    exact .opened c
  | closed inside =>
    have hparent := (q.tree.shape_modifyPredicates id PredicateSet.withAssignedTasks q.current).2.1
    exact .closed (q := q.withAssignedTasks id) (hparent.trans inside)
  | changed f step =>
    have hne : q.current ≠ id := hid.symm
    have hgroup : (q.withAssignedTasks id).group = q.group :=
      q.tree.node_modifyPredicates_of_ne id _ hne
    rw [withAssignedTasks_modify hne]
    refine .changed f ?_
    rw [predicates, hgroup]
    exact step
  | sorted p atRoot complete => exact .sorted (q := q.withAssignedTasks id) p atRoot complete
  | directed d pending => exact .directed (q := q.withAssignedTasks id) d pending

/-! ## Merges -/

/-- In a query whose groups are closed, the change of a group below the root. -/
theorem withAssignedTasks_finished (s : PredicateSet) (f : Forest) (keys : List SortKey) (i : Nat) :
    (finished s f keys).withAssignedTasks (i + 1) =
      finished s (f.modifyAt PredicateSet.withAssignedTasks i) keys := by
  rw [withAssignedTasks, finished, finished, Tree.modifyPredicates_ofForest]

/-- A group of a merged query below the root comes from one of the two queries. -/
theorem Reachable.withAssignedTasks_extend (hb : base.Reachable) (he : ext.Reachable)
    (hm : base.extend ext = .ok merged) (ihb : ∀ id : Nat, (base.withAssignedTasks id).Reachable)
    (ihe : ∀ id : Nat, (ext.withAssignedTasks id).Reachable) (i : Nat) :
    (merged.withAssignedTasks (i + 1)).Reachable := by
  obtain ⟨hrb, hre, -⟩ := extend_eq_ok.1 hm
  obtain ⟨s₁, f₁, heq₁, -⟩ := hb.eq_finished hrb
  obtain ⟨s₂, f₂, heq₂, -⟩ := he.eq_finished hre
  have hmerge := hm
  rw [heq₁, heq₂, extend_finished] at hmerge
  cases hs : s₁.merge s₂ with
  | error e =>
    rw [hs] at hmerge
    cases hmerge
  | ok s =>
    rw [hs] at hmerge
    cases hmerge
    rw [withAssignedTasks_finished]
    rcases Nat.lt_or_ge i f₁.size with hi | hi
    · have hleft := ihb (i + 1)
      rw [heq₁, withAssignedTasks_finished] at hleft
      refine .extend hleft he ?_
      rw [heq₂, extend_finished, hs, Forest.modifyAt_append_left _ hi]
      rfl
    · obtain ⟨j, rfl⟩ := Nat.exists_eq_add_of_le hi
      have hright := ihe (j + 1)
      rw [heq₂, withAssignedTasks_finished] at hright
      refine .extend hb hright ?_
      rw [heq₁, extend_finished, hs, Forest.modifyAt_append_right]
      rfl

/-! ## Histories -/

/-- Whatever calls and merges have built a query, others build it with assigned tasks included in
one more group. -/
theorem Reachable.withAssignedTasks (h : q.Reachable) (id : Nat) :
    (q.withAssignedTasks id).Reachable := by
  induction h generalizing id with
  | new =>
    cases id with
    | zero => exact Reachable.new.withAssignedTasks_current
    | succ i =>
      rw [Query.withAssignedTasks, Tree.modifyPredicates_of_ge]
      · exact .new
      · exact Nat.succ_le_succ (Nat.zero_le i)
  | @apply q r e hq hr ih =>
    by_cases hid : id = r.current
    · rw [hid]
      exact (Reachable.apply e hq hr).withAssignedTasks_current
    · obtain ⟨e', he'⟩ := ((step_of_apply hr).withAssignedTasks hid).exists_apply
      exact .apply e' (ih id) he'
  | @extend base ext merged hb he hm ihb ihe =>
    cases id with
    | zero =>
      obtain ⟨-, -, s, -, rfl⟩ := extend_eq_ok.1 hm
      exact (Reachable.extend hb he hm).withAssignedTasks_current
    | succ i => exact hb.withAssignedTasks_extend he hm ihb ihe i

/-! ## Compiling -/

theorem hasBareGroup_withAssignedTasks (q : Query) (id : Nat) :
    (q.withAssignedTasks id).tree.HasBareGroup ↔ q.tree.HasBareGroup := by
  have hnode : ∀ i : Nat,
      ((q.withAssignedTasks id).tree.node i).children = (q.tree.node i).children ∧
        ((q.withAssignedTasks id).tree.node i).predicates.filters =
          (q.tree.node i).predicates.filters := by
    intro i
    refine ⟨(q.tree.shape_modifyPredicates id PredicateSet.withAssignedTasks i).2.2, ?_⟩
    rw [Query.withAssignedTasks]
    rcases q.tree.node_modifyPredicates_or id PredicateSet.withAssignedTasks i with h | ⟨-, h⟩
    · rw [h]
    · rw [h]
      exact filters_withAssignedTasks _
  have hsize : (q.withAssignedTasks id).tree.size = q.tree.size :=
    q.tree.size_modifyPredicates id _
  simp only [Tree.HasBareGroup, hnode, hsize]

/-- Including assigned tasks keeps a query from compiling as little as any modifier. -/
theorem Reachable.exists_compile_withAssignedTasks (hq : q.Reachable) {identity : IdentityResolver}
    {config : Config} {c : Criteria} (hc : q.compile identity config = .ok c) (id : Nat) :
    ∃ c', (q.withAssignedTasks id).compile identity config = .ok c' := by
  have hcomplete := hq.complete_of_compile hc
  have hopen := fun h => not_complete_iff.2 h hcomplete
  have hbare : ¬q.tree.HasBareGroup :=
    ((compile_outcome hq identity config).2.1 hopen).2.1 ⟨c, hc⟩
  refine (hq.withAssignedTasks id).compile_of_not_bare identity config ?_ ?_
  · exact ⟨hcomplete.atRoot, hcomplete.directed⟩
  · rwa [hasBareGroup_withAssignedTasks]

end Query

end Worklist
