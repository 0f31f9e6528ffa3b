import Worklist.Proofs.Criteria.Conjunction
import Worklist.Proofs.Query.Frames

/-!
# What a merge builds

A merge of two queries whose groups are closed only fails because a candidate user meets candidate
groups at the root.  Otherwise it builds a query that is known by its parts: the filters of the
root, taken from one of the two queries or from both, and the groups below the root.

* `conflicts_united_iff` says when a merge fails.
* `Query.Combines` lists the parts of a merged query, and `combines_united` gives them for queries
  in their finished form.
* `Reachable.compile_of_compile` says that the resolver of identities and the settings have no
  part in whether a query compiles.
* `extend_outcome` is the result for reachable queries.
-/

namespace Worklist

namespace PredicateSet

/-- Two groups conflict as one if between them they have a candidate user and a filter on candidate
groups, as a value or as an expression. -/
theorem conflicts_united_iff {a b : PredicateSet} :
    (a.united b).conflicts = true ↔
      (a.hasPredicate .candidateUser = true ∨ b.hasPredicate .candidateUser = true) ∧
        ∃ d ∈ [Dimension.candidateGroup, .candidateGroupIn],
          a.hasPredicate d = true ∨ b.hasPredicate d = true := by
  rw [conflicts, hasPredicate_united, hasPredicate_united, hasPredicate_united, Bool.and_eq_true,
    Bool.or_eq_true, Bool.or_eq_true, Bool.or_eq_true, Bool.or_eq_true]
  simp only [List.mem_cons, List.not_mem_nil, or_false, exists_eq_or_imp, exists_eq_left]

theorem mergeVariables_eq (base ext : List VariablePredicate) :
    mergeVariables base ext =
      ext ++ base.filter fun p => decide (∀ r ∈ ext, r.mergeKey ≠ p.mergeKey) := by
  rw [mergeVariables]
  congr 1
  refine List.filter_congr fun p _ => ?_
  rw [Bool.eq_iff_iff, Bool.not_eq_true', List.any_eq_false, decide_eq_true_iff]
  simp only [beq_iff_eq, ne_eq]

end PredicateSet

namespace Query

variable {base ext merged : Query}

/-- The filters of the root. -/
def rootFilters (q : Query) : PredicateSet := (q.tree.node Tree.root).predicates

/-- The groups below the root, each with everything below it. -/
def rootGroups (q : Query) : List GroupTree :=
  (q.tree.node Tree.root).children.map q.tree.unfold

/-- A query has the parts of two others: every dimension of its root from the extension if that has
a value or an expression for it and else from the base, the switches of both, the variables of the
extension in front of those of the base that none of them replaces, and the groups of the base in
front of those of the extension. -/
structure Combines (base ext merged : Query) : Prop where
  atRoot : merged.isAtRoot = true
  connective : (merged.tree.node Tree.root).connective = .and
  terms : ∀ d, merged.rootFilters.terms.get? d =
    if ext.rootFilters.hasPredicate d then ext.rootFilters.terms.get? d
    else base.rootFilters.terms.get? d
  expressions : ∀ d, merged.rootFilters.expressions.get? d =
    if ext.rootFilters.hasPredicate d then ext.rootFilters.expressions.get? d
    else base.rootFilters.expressions.get? d
  exclusive : ∀ d, merged.rootFilters.terms.get? d = none ∨
    merged.rootFilters.expressions.get? d = none
  flags : ∀ f, merged.rootFilters.hasFlag f =
    (base.rootFilters.hasFlag f || ext.rootFilters.hasFlag f)
  variablePredicates : merged.rootFilters.variablePredicates =
    ext.rootFilters.variablePredicates ++ base.rootFilters.variablePredicates.filter fun p =>
      decide (∀ r ∈ ext.rootFilters.variablePredicates, r.mergeKey ≠ p.mergeKey)
  groups : merged.rootGroups = base.rootGroups ++ ext.rootGroups
  size : merged.tree.size + 1 = base.tree.size + ext.tree.size

/-! ## Finished queries -/

theorem rootFilters_finished (s : PredicateSet) (f : Forest) (keys : List SortKey) :
    (finished s f keys).rootFilters = s := rfl

theorem rootGroups_finished (s : PredicateSet) (f : Forest) (keys : List SortKey) :
    (finished s f keys).rootGroups = f.groups :=
  (Tree.carries_ofForest s f).unfold (Tree.ascending_ofForest s f)

theorem size_finished (s : PredicateSet) (f : Forest) (keys : List SortKey) :
    (finished s f keys).tree.size = f.size + 1 := Tree.size_ofForest s f

section United

variable {s₁ s₂ : PredicateSet} (h₁ : PredicateSet.Sound .and s₁) (h₂ : PredicateSet.Sound .and s₂)
  (f₁ f₂ : Forest) (k₁ k₂ keys : List SortKey)

include h₁ h₂

theorem combines_united (h : (s₁.united s₂).conflicts = false) :
    (finished s₁ f₁ k₁).Combines (finished s₂ f₂ k₂)
      (finished (s₁.united s₂) (f₁ ++ f₂) keys) where
  atRoot := rfl
  connective := rfl
  terms d := by
    rw [rootFilters_finished, rootFilters_finished, rootFilters_finished,
      PredicateSet.get?_terms_united, PredicateSet.source]
    split <;> rfl
  expressions d := by
    rw [rootFilters_finished, rootFilters_finished, rootFilters_finished,
      PredicateSet.get?_expressions_united h₁ h₂, PredicateSet.source]
    split <;> rfl
  exclusive d := ((PredicateSet.Sound.united h₁ h₂ h).entry d).exclusive
  flags f := PredicateSet.hasFlag_united s₁ s₂ f
  variablePredicates := by
    rw [rootFilters_finished, rootFilters_finished, rootFilters_finished,
      PredicateSet.variablePredicates_united, PredicateSet.mergeVariables_eq]
  groups := by
    rw [rootGroups_finished, rootGroups_finished, rootGroups_finished, Forest.groups_append]
  size := by
    rw [size_finished, size_finished, size_finished, Forest.size_append]
    omega

end United

/-! ## Reachable queries -/

/-- Groups are read off the tree of a reachable query from the top down. -/
theorem Reachable.unfold_eq {q : Query} (hq : q.Reachable) (id : Nat) :
    q.tree.unfold id = .node (q.tree.node id).connective (q.tree.node id).predicates
      ((q.tree.node id).children.map q.tree.unfold) := by
  obtain ⟨s, f, htree, -, -⟩ := hq.sound
  rw [htree]
  exact Tree.unfold_eq (Tree.ascending_ofForest s f) id

/-- A query that compiles does so with every resolver of identities and all settings. -/
theorem Reachable.compile_of_compile {q : Query} (hq : q.Reachable)
    {identity : IdentityResolver} {config : Config} {c : Criteria}
    (hc : q.compile identity config = .ok c) (identity' : IdentityResolver) (config' : Config) :
    ∃ c', q.compile identity' config' = .ok c' := by
  have hcomplete := hq.complete_of_compile hc
  rw [hq.compile_of_complete hcomplete] at hc ⊢
  cases hplan : q.tree.closingPlan with
  | error e =>
    rw [hplan] at hc
    cases hc
  | ok slots => exact ⟨_, rfl⟩

/-- Two queries that compile still do when they are merged. -/
theorem Reachable.exists_compile_extend (hb : base.Reachable) (he : ext.Reachable)
    (hm : base.extend ext = .ok merged) {i₁ i₂ : IdentityResolver} {g₁ g₂ : Config}
    {cb ce : Criteria} (hcb : base.compile i₁ g₁ = .ok cb) (hce : ext.compile i₂ g₂ = .ok ce)
    (identity : IdentityResolver) (config : Config) :
    ∃ cm, merged.compile identity config = .ok cm := by
  obtain ⟨cb, hcb⟩ := hb.compile_of_compile hcb identity config
  obtain ⟨ce, hce⟩ := he.compile_of_compile hce identity config
  obtain ⟨s₁, f₁, hb'⟩ := hb.lays hcb
  obtain ⟨s₂, f₂, he'⟩ := he.lays hce
  obtain ⟨cm, hcm, -⟩ := hb.compile_extend he hcb hce hb' he' hm
  exact ⟨cm, hcm⟩

/-- What a merge of two queries at their roots builds.

It fails exactly if the roots together have a candidate user and a filter on candidate groups, and
then for this reason; that assigned tasks are included is never a reason.  If it succeeds, the
merged query has the parts that `Combines` lists, where the groups below a root are read off the
tree from the top down; and it compiles if both queries do. -/
theorem extend_outcome (hb : base.Reachable) (he : ext.Reachable) (hrb : base.isAtRoot = true)
    (hre : ext.isAtRoot = true) :
    ((∃ e, base.extend ext = .error e) ↔
      (base.rootFilters.hasPredicate .candidateUser = true ∨
        ext.rootFilters.hasPredicate .candidateUser = true) ∧
      ∃ d ∈ [Dimension.candidateGroup, .candidateGroupIn],
        base.rootFilters.hasPredicate d = true ∨ ext.rootFilters.hasPredicate d = true) ∧
    (∀ e, base.extend ext = .error e → e.kind = .mutualExclusion) ∧
    ∀ merged, base.extend ext = .ok merged →
      base.Combines ext merged ∧
      (∀ q ∈ [base, ext, merged], ∀ id : Nat, q.tree.unfold id =
        .node (q.tree.node id).connective (q.tree.node id).predicates
          ((q.tree.node id).children.map q.tree.unfold)) ∧
      ∀ i₁ g₁ cb i₂ g₂ ce, base.compile i₁ g₁ = .ok cb → ext.compile i₂ g₂ = .ok ce →
        ∀ identity config, ∃ cm, merged.compile identity config = .ok cm := by
  obtain ⟨s₁, f₁, heq₁, h₁⟩ := hb.eq_finished hrb
  obtain ⟨s₂, f₂, heq₂, h₂⟩ := he.eq_finished hre
  have hs₁ : base.rootFilters = s₁ := by rw [heq₁, rootFilters_finished]
  have hs₂ : ext.rootFilters = s₂ := by rw [heq₂, rootFilters_finished]
  rw [hs₁, hs₂, ← PredicateSet.conflicts_united_iff]
  cases h : (s₁.united s₂).conflicts with
  | true =>
    obtain ⟨e, hfails, hkind⟩ :=
      extend_finished_of_conflicts h f₁ f₂ base.sortKeys ext.sortKeys
    rw [← heq₁, ← heq₂] at hfails
    refine ⟨iff_of_true ⟨e, hfails⟩ rfl, fun e' he' => ?_, fun merged hm => ?_⟩
    · rw [hfails] at he'
      cases he'
      exact hkind
    · rw [hfails] at hm
      cases hm
  | false =>
    have hok := extend_finished_of_not_conflicts h₁ h₂ h f₁ f₂ base.sortKeys ext.sortKeys
    rw [← heq₁, ← heq₂] at hok
    refine ⟨iff_of_false ?_ Bool.false_ne_true, fun e he' => ?_, fun merged hm => ?_⟩
    · rintro ⟨e, he'⟩
      rw [hok] at he'
      cases he'
    · rw [hok] at he'
      cases he'
    · have hcombines := combines_united h₁ h₂ f₁ f₂ base.sortKeys ext.sortKeys
        (mergeSortKeys base.sortKeys ext.sortKeys) h
      rw [← heq₁, ← heq₂] at hcombines
      have hmerged : merged.Reachable := .extend hb he hm
      rw [hok, Except.ok.injEq] at hm
      refine ⟨hm ▸ hcombines, ?_, ?_⟩
      · exact List.forall_mem_cons.2 ⟨hb.unfold_eq, List.forall_mem_cons.2
          ⟨he.unfold_eq, List.forall_mem_singleton.2 hmerged.unfold_eq⟩⟩
      · intro i₁ g₁ cb i₂ g₂ ce hcb hce
        exact hb.exists_compile_extend he (hok.trans (congrArg _ hm)) hcb hce

/-- An expression replaces a value and a variable its namesake; a switch that needs a filter on
candidates is taken over together with that filter; groups within groups come from both sides.  With
an expression for a candidate group in the place of the extension the merge fails. -/
theorem extend_outcome_built :
    let base := built [.setTerm .owner (.text "ada") rfl,
      .setTerm .candidateUser (.text "bob") rfl, .setFlag .includeAssignedTasks,
      .compareVariable "state" .equals (.string "open") .taskLocal true,
      .compareVariable "kind" .equals (.string "call") .taskLocal true,
      .openGroup .or, .setFlag .unassigned, .openGroup .and, .setFlag .withoutDueDate,
      .closeGroup .and, .closeGroup .or]
    let ext := built [.setExpression .owner "boss" rfl, .setFlag .withoutTenantId,
      .compareVariable "state" .notEquals (.string "closed") .taskLocal true,
      .openGroup .or, .setFlag .assigned, .closeGroup .or]
    let other := built [.setExpression .candidateGroup "team" rfl]
    (base.Reachable ∧ ext.Reachable ∧ other.Reachable) ∧
      (base.isAtRoot = true ∧ ext.isAtRoot = true ∧ other.isAtRoot = true) ∧
      (∃ merged, base.extend ext = .ok merged ∧
        merged.rootFilters.terms.get? .owner = none ∧
        merged.rootFilters.expressions.get? .owner = some "boss" ∧
        merged.rootFilters.terms.get? .candidateUser = some [.text "bob"] ∧
        merged.rootFilters.hasFlag .includeAssignedTasks = true ∧
        merged.rootFilters.variablePredicates.map (·.operator) = [.notEquals, .equals] ∧
        merged.rootGroups = base.rootGroups ++ ext.rootGroups ∧ merged.tree.size = 4 ∧
        ∃ cm, merged.compile (fun _ => []) {} = .ok cm) ∧
      ∃ e, base.extend other = .error e ∧ e.kind = .mutualExclusion := by
  intro base ext other
  have hb : base.Reachable := reachable_built _
  have he : ext.Reachable := reachable_built _
  have ho : other.Reachable := reachable_built _
  have hroots : base.isAtRoot = true ∧ ext.isAtRoot = true ∧ other.isAtRoot = true := by
    decide +kernel
  obtain ⟨hfails, -, hparts⟩ := extend_outcome hb he hroots.1 hroots.2.1
  obtain ⟨hfails', hkind, -⟩ := extend_outcome hb ho hroots.1 hroots.2.2
  have hdisjoint : ¬ ∃ e, base.extend ext = .error e := by
    rw [hfails]
    decide +kernel
  have hclash : ∃ e, base.extend other = .error e := by
    rw [hfails']
    decide +kernel
  refine ⟨⟨hb, he, ho⟩, hroots, ?_, hclash.imp fun e h => ⟨h, hkind e h⟩⟩
  cases hm : base.extend ext with
  | error e => exact absurd ⟨e, hm⟩ hdisjoint
  | ok merged =>
    obtain ⟨hcombines, -, hcompiles⟩ := hparts merged hm
    have hbase : (base.compile (fun _ => []) {}).toOption.isSome = true := by decide +kernel
    have hext : (ext.compile (fun _ => []) {}).toOption.isSome = true := by decide +kernel
    obtain ⟨cb, hcb⟩ := Option.isSome_iff_exists.1 hbase
    obtain ⟨ce, hce⟩ := Option.isSome_iff_exists.1 hext
    rw [toOption_eq_some] at hcb hce
    have hsize := hcombines.size
    have hsizes : base.tree.size = 3 ∧ ext.tree.size = 2 := by decide +kernel
    refine ⟨merged, rfl, ?_, ?_, ?_, ?_, ?_, hcombines.groups, by omega,
      hcompiles _ _ cb _ _ ce hcb hce _ _⟩
    · rw [hcombines.terms]
      decide +kernel
    · rw [hcombines.expressions]
      decide +kernel
    · rw [hcombines.terms]
      decide +kernel
    · rw [hcombines.flags]
      decide +kernel
    · rw [hcombines.variablePredicates]
      decide +kernel

end Query

end Worklist
