import Worklist.Proofs.Criteria.Filters
import Worklist.Proofs.Tree.Groups

/-!
# Which queries compile

A reachable query passes every check on its groups, because the calls and merges keep all groups
sound.  What is left to fail is an open group, a sort key without direction, and a group that
filters nothing.

* `Reachable.run_candidateExclusion`, `Reachable.run_assignedTasksPrecondition` and
  `run_variableOperators` are the checks that cannot fail.
* `Query.Complete` says that the other two checks succeed, and `Reachable.compile_of_complete` what
  compiling does then.
* `Tree.HasBareGroup` says that the closing plan fails.
* `compile_outcome` puts them together.
-/

namespace Worklist

namespace Query

variable {q : Query} {identity : IdentityResolver} {config : Config}

/-! ## Checks that succeed -/

/-- What holds of every sound group holds of every node of a reachable query. -/
theorem Reachable.forall_nodes (hq : q.Reachable) {P : Connective → PredicateSet → Prop}
    (h : ∀ c s, PredicateSet.Sound c s → P c s) :
    ∀ n ∈ q.tree.nodes.toList, P n.connective n.predicates := by
  obtain ⟨s, f, htree, hsound, hroot⟩ := hq.sound
  rw [htree, Tree.forall_nodes_ofForest]
  exact ⟨h _ _ hroot, hsound.imp h⟩

theorem Reachable.run_candidateExclusion (hq : q.Reachable) :
    Check.run q .candidateExclusion = .ok () := by
  refine forM_eq_ok.2 (hq.forall_nodes (P := fun c s =>
    (if c = .and then s.checkExclusion else .ok ()) = .ok ()) fun c s hs => ?_)
  split
  · rename_i hc
    exact PredicateSet.checkExclusion_eq_ok.2 (hs.exclusion hc)
  · rfl

theorem Reachable.run_assignedTasksPrecondition (hq : q.Reachable) :
    Check.run q .assignedTasksPrecondition = .ok () := by
  refine forM_eq_ok.2 (hq.forall_nodes (P := fun _ s =>
    (if s.hasFlag .includeAssignedTasks then s.checkAssignedTasks else .ok ()) = .ok ())
    fun c s hs => ?_)
  split
  · rename_i hflag
    exact PredicateSet.checkAssignedTasks_eq_ok.2 (hs.assigned hflag)
  · rfl

/-- Nothing stands against a predicate on a variable, by its type. -/
theorem run_variableOperators (q : Query) : Check.run q .variableOperators = .ok () := by
  refine forM_eq_ok.2 fun n _ => forM_eq_ok.2 fun p _ => ?_
  rw [Check.checkVariable, p.unobjectionable]

/-! ## Checks that can fail -/

/-- All groups are closed and every sort key has its direction. -/
structure Complete (q : Query) : Prop where
  atRoot : q.isAtRoot = true
  directed : ∀ key ∈ q.sortKeys, key.direction ≠ none

theorem run_cursorAtRoot_eq_ok : Check.run q .cursorAtRoot = .ok () ↔ q.isAtRoot = true := by
  rw [Check.run]
  cases q.isAtRoot <;> simp

theorem run_orderingDirections_eq_ok :
    Check.run q .orderingDirections = .ok () ↔ ∀ key ∈ q.sortKeys, key.direction ≠ none := by
  rw [Check.run]
  split
  · rename_i key hkey
    have hmem := List.mem_of_find?_eq_some hkey
    have hnone := List.find?_some hkey
    constructor
    · intro h
      cases h
    · intro h
      exact absurd (Option.isNone_iff_eq_none.1 hnone) (h key hmem)
  · rename_i hkeys
    rw [List.find?_eq_none] at hkeys
    refine iff_of_true rfl fun key hkey hnone => hkeys key hkey ?_
    rw [hnone]
    rfl

theorem not_complete_iff :
    ¬q.Complete ↔ q.isAtRoot = false ∨ ∃ key ∈ q.sortKeys, key.direction = none := by
  constructor
  · intro h
    cases hroot : q.isAtRoot with
    | false => exact .inl rfl
    | true =>
      refine .inr (Classical.byContradiction fun hnone => h ⟨hroot, fun key hkey hdir => ?_⟩)
      exact hnone ⟨key, hkey, hdir⟩
  · rintro (hroot | ⟨key, hkey, hdir⟩) h
    · rw [h.atRoot] at hroot
      cases hroot
    · exact h.directed key hkey hdir

/-- Of the checks of a reachable query, only the first two count. -/
theorem Reachable.runAll_standard (hq : q.Reachable) :
    Check.runAll q Check.standard =
      Check.run q .cursorAtRoot >>= fun _ => Check.run q .orderingDirections := by
  rw [Check.runAll, Check.standard, List.forM, List.forM, List.forM, List.forM, List.forM,
    hq.run_candidateExclusion, hq.run_assignedTasksPrecondition, run_variableOperators]
  cases Check.run q .orderingDirections <;> rfl

theorem Reachable.runAll_eq_ok (hq : q.Reachable) :
    Check.runAll q Check.standard = .ok () ↔ q.Complete := by
  rw [hq.runAll_standard, bind_eq_ok]
  constructor
  · rintro ⟨⟨⟩, hroot, hkeys⟩
    exact ⟨run_cursorAtRoot_eq_ok.1 hroot, run_orderingDirections_eq_ok.1 hkeys⟩
  · intro h
    exact ⟨(), run_cursorAtRoot_eq_ok.2 h.atRoot, run_orderingDirections_eq_ok.2 h.directed⟩

/-- The first two checks fail for reasons of structure only. -/
theorem Reachable.kind_of_runAll (hq : q.Reachable) {e : QueryError}
    (h : Check.runAll q Check.standard = .error e) : e.kind = .structural := by
  rw [hq.runAll_standard, Check.run, Check.run] at h
  split at h
  · rw [ok_bind] at h
    split at h
    · cases h
      rfl
    · cases h
  · cases h
    rfl

/-! ## The closing plan -/

/-- The compiled query with a given closing plan. -/
def compiled (q : Query) (identity : IdentityResolver) (config : Config) (slots : List Slot) :
    Criteria :=
  let users := if config.expandCandidateGroups then sortedTexts q.tree.candidateUsers else []
  { tree := q.tree
    slots
    sortKeys := q.sortKeys.map SortKey.directed
    candidateGroups := users.map fun user => (user, sortedTexts (identity user))
    likeEscape := config.likeEscape }

theorem compile_eq (q : Query) (identity : IdentityResolver) (config : Config) :
    q.compile identity config = Check.runAll q Check.standard >>= fun _ =>
      q.tree.closingPlan.map (q.compiled identity config) := by
  rw [compile]
  cases q.tree.closingPlan <;> rfl

theorem Reachable.compile_of_complete (hq : q.Reachable) (h : q.Complete) :
    q.compile identity config = q.tree.closingPlan.map (q.compiled identity config) := by
  rw [compile_eq, hq.runAll_eq_ok.2 h, ok_bind]

end Query

/-- Some group below the root has neither children nor a filter. -/
def Tree.HasBareGroup (t : Tree) : Prop :=
  ∃ id : Nat, id ≠ root ∧ id < t.size ∧ (t.node id).children = [] ∧
    (t.node id).predicates.filters = []

/-- A forest of sound groups is full if no group of its tree is bare. -/
theorem Forest.isFull_iff_not_bare {f : Forest} (s : PredicateSet)
    (hsound : f.All PredicateSet.Sound) :
    f.isFull = true ↔ ¬(Tree.ofForest s f).HasBareGroup := by
  have hcarries := Tree.carries_ofForest s f
  have hpositions := hcarries.forall_positions.2 hsound
  rw [hcarries.isFull_iff]
  constructor
  · rintro hfull ⟨id, hne, hlt, hchildren, hfilters⟩
    have hid := Tree.mem_range'_ofForest.2 ⟨hne, hlt⟩
    rcases hfull id hid with hsome | hsome
    · exact hsome hchildren
    · rw [(hpositions id hid).isEmpty_iff.2 hfilters] at hsome
      cases hsome
  · intro hbare id hid
    obtain ⟨hne, hlt⟩ := (Tree.mem_range'_ofForest (s := s)).1 hid
    refine Classical.byContradiction fun hnone => hbare ⟨id, hne, hlt, ?_, ?_⟩
    · exact Classical.byContradiction fun h => hnone (.inl h)
    · rw [← (hpositions id hid).isEmpty_iff, ← Bool.not_eq_false]
      exact fun h => hnone (.inr h)

namespace Query

variable {q : Query} {identity : IdentityResolver} {config : Config}

theorem Reachable.closingPlan_of_bare (hq : q.Reachable) (h : q.tree.HasBareGroup) :
    q.tree.closingPlan = .error .emptyGroup := by
  obtain ⟨s, f, htree, hsound, -⟩ := hq.sound
  rw [htree] at h ⊢
  rw [Tree.closingPlan_ofForest, if_neg fun hfull => (f.isFull_iff_not_bare s hsound).1 hfull h]

theorem Reachable.closingPlan_of_not_bare (hq : q.Reachable) (h : ¬q.tree.HasBareGroup) :
    ∃ slots, q.tree.closingPlan = .ok slots := by
  obtain ⟨s, f, htree, hsound, -⟩ := hq.sound
  rw [htree] at h ⊢
  rw [Tree.closingPlan_ofForest, if_pos ((f.isFull_iff_not_bare s hsound).2 h)]
  exact ⟨_, rfl⟩

/-! ## The outcome -/

theorem Reachable.compile_of_not_complete (hq : q.Reachable) (identity : IdentityResolver)
    (config : Config) (h : ¬q.Complete) :
    ∃ e, q.compile identity config = .error e ∧ e.kind = .structural := by
  rw [compile_eq]
  cases hchecks : Check.runAll q Check.standard with
  | ok _ => exact absurd (hq.runAll_eq_ok.1 hchecks) h
  | error e => exact ⟨e, rfl, hq.kind_of_runAll hchecks⟩

theorem Reachable.compile_of_bare (hq : q.Reachable) (h : q.Complete)
    (hbare : q.tree.HasBareGroup) : q.compile identity config = .error .emptyGroup := by
  rw [hq.compile_of_complete h, hq.closingPlan_of_bare hbare]
  rfl

theorem Reachable.compile_of_not_bare (hq : q.Reachable) (identity : IdentityResolver)
    (config : Config) (h : q.Complete) (hbare : ¬q.tree.HasBareGroup) :
    ∃ c, q.compile identity config = .ok c := by
  obtain ⟨slots, hslots⟩ := hq.closingPlan_of_not_bare hbare
  rw [hq.compile_of_complete h, hslots]
  exact ⟨_, rfl⟩

/-- Compiling a reachable query fails for a reason of structure, if a group is open or a sort key
has no direction.  Otherwise it fails because a group is empty, if one below the root has neither
children nor a filter, and else it succeeds.  It fails for no other reason, whatever calls and
merges have built the query; calls that fail leave it as it was. -/
theorem compile_outcome (hq : q.Reachable) (identity : IdentityResolver) (config : Config) :
    ((∃ e, q.compile identity config = .error e ∧ e.kind = .structural) ↔
      q.isAtRoot = false ∨ ∃ key ∈ q.sortKeys, key.direction = none) ∧
    (¬(q.isAtRoot = false ∨ ∃ key ∈ q.sortKeys, key.direction = none) →
      (q.compile identity config = .error .emptyGroup ↔ q.tree.HasBareGroup) ∧
      ((∃ c, q.compile identity config = .ok c) ↔ ¬q.tree.HasBareGroup)) ∧
    (∀ e, q.compile identity config = .error e → e.kind = .structural ∨ e = .emptyGroup) := by
  rw [← not_complete_iff, Classical.not_not]
  by_cases hcomplete : q.Complete
  · by_cases hbare : q.tree.HasBareGroup
    · rw [hq.compile_of_bare hcomplete hbare]
      refine ⟨iff_of_false ?_ fun h => h hcomplete, fun _ => ⟨iff_of_true rfl hbare, ?_⟩, ?_⟩
      · rintro ⟨e, he, hkind⟩
        cases he
        cases hkind
      · exact iff_of_false (by rintro ⟨c, hc⟩; cases hc) fun h => h hbare
      · intro e he
        cases he
        exact .inr rfl
    · obtain ⟨c, hc⟩ := hq.compile_of_not_bare identity config hcomplete hbare
      rw [hc]
      refine ⟨iff_of_false ?_ fun h => h hcomplete, fun _ => ⟨iff_of_false ?_ hbare, ?_⟩, ?_⟩
      · rintro ⟨e, he, -⟩
        cases he
      · intro h
        cases h
      · exact iff_of_true ⟨c, rfl⟩ hbare
      · intro e he
        cases he
  · obtain ⟨e, he, hkind⟩ := hq.compile_of_not_complete identity config hcomplete
    rw [he]
    refine ⟨iff_of_true ⟨e, rfl, hkind⟩ hcomplete, fun h => absurd h hcomplete, ?_⟩
    intro e' he'
    cases he'
    exact .inl hkind

/-- A query with an open group, one whose group has a modifier only, and one that compiles. -/
theorem compile_outcome_built :
    ∃ inside bare full : Query, (inside.Reachable ∧ bare.Reachable ∧ full.Reachable) ∧
      (∃ e, inside.compile (fun _ => []) {} = .error e ∧ e.kind = .structural) ∧
      bare.compile (fun _ => []) {} = .error .emptyGroup ∧
      ∃ c, full.compile (fun _ => []) {} = .ok c := by
  let inside := built [.openGroup .or, .setFlag .unassigned]
  let bare := built [.setTerm .candidateUser (.text "ada") rfl, .setFlag .includeAssignedTasks,
    .openGroup .or, .setFlag .matchVariableNamesIgnoreCase, .closeGroup .or]
  let full := built [.setTerm .candidateUser (.text "ada") rfl, .setFlag .includeAssignedTasks,
    .openGroup .or, .setFlag .unassigned, .closeGroup .or]
  have hinside : inside.Reachable := reachable_built _
  have hbare : bare.Reachable := reachable_built _
  have hfull : full.Reachable := reachable_built _
  refine ⟨inside, bare, full, ⟨hinside, hbare, hfull⟩, ?_, ?_, ?_⟩
  · have hroot : inside.isAtRoot = false := by decide +kernel
    exact (compile_outcome hinside _ _).1.2 (.inl hroot)
  · have hcomplete : bare.Complete := ⟨by decide +kernel, by decide +kernel⟩
    have hgroup : bare.tree.HasBareGroup := ⟨1, by decide +kernel⟩
    have hnot := fun h => not_complete_iff.2 h hcomplete
    exact ((compile_outcome hbare _ _).2.1 hnot).1.2 hgroup
  · have hcomplete : full.Complete := ⟨by decide +kernel, by decide +kernel⟩
    have hgroup : ¬full.tree.HasBareGroup := by
      rintro ⟨id, hne, hlt, -, hfilters⟩
      have hid : id = 1 := by
        have hsize : full.tree.size = 2 := by decide +kernel
        have hpos := Nat.pos_of_ne_zero hne
        omega
      subst hid
      revert hfilters
      decide +kernel
    have hnot := fun h => not_complete_iff.2 h hcomplete
    exact ((compile_outcome hfull _ _).2.1 hnot).2.2 hgroup

end Query

end Worklist
