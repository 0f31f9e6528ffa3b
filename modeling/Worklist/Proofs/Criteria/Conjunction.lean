import Worklist.Proofs.Criteria.Expansion
import Worklist.Proofs.Criteria.Outcomes
import Worklist.Proofs.Query.Extend

/-!
# Extending by an independent query

A query that is extended by one whose root group has other dimensions, other variables and the same
modifiers asks for both: no filter of either root is lost, no group below a root is, and every
filter is evaluated as it was before.

* `mem_filters_united` gives the filters of two independent groups as one.
* `Reachable.compile_extend` compiles the extended query.
* `Follows` says that a compiled query evaluates the groups of another one as that one does;
  `allEvaluate_united`, `holds_united` and `fails_united` compare a query that follows two others
  with them.
* `extend_conjunction` is the result for reachable queries.
-/

namespace Worklist

/-! ## The filters of two groups -/

namespace PredicateSet

variable {a b : PredicateSet}

/-- Two groups share no dimension and no key of a variable, and have the same modifiers. -/
structure Independent (a b : PredicateSet) : Prop where
  dimensionsApart : ∀ d : Dimension, ¬(a.hasPredicate d = true ∧ b.hasPredicate d = true)
  keysApart : ∀ p ∈ a.variablePredicates, ∀ r ∈ b.variablePredicates, p.mergeKey ≠ r.mergeKey
  sameModifiers : a.SameModifiers b

theorem entries_of_not_hasPredicate {s : PredicateSet} {d : Dimension}
    (h : s.hasPredicate d = false) : s.termsOf d = [] ∧ s.expressionOf? d = none := by
  rw [hasPredicate, Bool.or_eq_false_iff, Table.contains, Table.contains,
    Option.isSome_eq_false_iff, Option.isSome_eq_false_iff, Option.isNone_iff_eq_none,
    Option.isNone_iff_eq_none] at h
  rw [termsOf, expressionOf?, h.1, h.2]
  exact ⟨rfl, rfl⟩

/-- A dimension comes from one of two independent groups, and the other one does not have it. -/
theorem Independent.source (h : Independent a b) (d : Dimension) :
    source a b d = b ∧ a.hasPredicate d = false ∨ source a b d = a ∧ b.hasPredicate d = false := by
  rw [PredicateSet.source]
  cases hb : b.hasPredicate d with
  | true => exact .inl ⟨rfl, Bool.eq_false_iff.2 fun ha => h.dimensionsApart d ⟨ha, hb⟩⟩
  | false => exact .inr ⟨rfl, rfl⟩

/-- No variable replaces another. -/
theorem Independent.mergeVariables (h : Independent a b) :
    mergeVariables a.variablePredicates b.variablePredicates =
      b.variablePredicates ++ a.variablePredicates := by
  rw [PredicateSet.mergeVariables, List.filter_eq_self.2]
  intro p hp
  rw [Bool.not_eq_true', List.any_eq_false]
  intro r hr heq
  exact h.keysApart p hp r hr (eq_of_beq heq).symm

theorem Independent.termsOf_united (h : Independent a b) (d : Dimension) (t : Term) :
    t ∈ (a.united b).termsOf d ↔ t ∈ a.termsOf d ∨ t ∈ b.termsOf d := by
  have hunited : (a.united b).termsOf d = (PredicateSet.source a b d).termsOf d := by
    rw [termsOf, termsOf, get?_terms_united]
  rw [hunited]
  rcases h.source d with ⟨hs, hnone⟩ | ⟨hs, hnone⟩
  · simp [hs, (entries_of_not_hasPredicate hnone).1]
  · simp [hs, (entries_of_not_hasPredicate hnone).1]

theorem Independent.expressionOf?_united (h : Independent a b) (ha : Sound .and a)
    (hb : Sound .and b) (d : Dimension) (e : String) :
    (a.united b).expressionOf? d = some e ↔
      a.expressionOf? d = some e ∨ b.expressionOf? d = some e := by
  have hunited : (a.united b).expressionOf? d = (PredicateSet.source a b d).expressionOf? d :=
    get?_expressions_united ha hb d
  rw [hunited]
  rcases h.source d with ⟨hs, hnone⟩ | ⟨hs, hnone⟩
  · simp [hs, (entries_of_not_hasPredicate hnone).2]
  · simp [hs, (entries_of_not_hasPredicate hnone).2]

/-- The filters of independent groups as one are the filters of both. -/
theorem Independent.mem_filters_united (h : Independent a b) (ha : Sound .and a)
    (hb : Sound .and b) (x : Filter) :
    x ∈ (a.united b).filters ↔ x ∈ a.filters ∨ x ∈ b.filters := by
  cases x with
  | term d t => simp only [mem_filters_term, h.termsOf_united]
  | expression d e => simp only [mem_filters_expression, h.expressionOf?_united ha hb]
  | flag f => simp only [mem_filters_flag, hasFlag_united, Bool.or_eq_true, or_and_right]
  | onVariable p =>
    rw [mem_filters_onVariable, mem_filters_onVariable, mem_filters_onVariable,
      variablePredicates_united, h.mergeVariables, List.mem_append, or_comm]

/-- A property of all filters of independent groups as one is one of the filters of each. -/
theorem Independent.forall_filters (h : Independent a b) (ha : Sound .and a) (hb : Sound .and b)
    {P : Filter → Prop} :
    (∀ x ∈ (a.united b).filters, P x) ↔ (∀ x ∈ a.filters, P x) ∧ ∀ x ∈ b.filters, P x := by
  simp only [h.mem_filters_united ha hb, or_imp, forall_and]

theorem Independent.modifiers_left (h : Independent a b) : (a.united b).SameModifiers a := by
  intro f hf
  rw [hasFlag_united, ← h.sameModifiers f hf, Bool.or_self]

theorem Independent.modifiers_right (h : Independent a b) : (a.united b).SameModifiers b := by
  intro f hf
  rw [hasFlag_united, h.sameModifiers f hf, Bool.or_self]

end PredicateSet

/-! ## Compiling the extended query -/

namespace Query

variable {base ext merged : Query} {identity : IdentityResolver} {config : Config}

theorem Reachable.complete_of_compile {q : Query} (hq : q.Reachable) {c : Criteria}
    (hc : q.compile identity config = .ok c) : q.Complete :=
  hq.runAll_eq_ok.1 (compile_eq_ok hc).1

/-- Two queries that compile still do after one is extended by the other; the root groups are
united, and the groups below them stand side by side. -/
theorem Reachable.compile_extend (hb : base.Reachable) (he : ext.Reachable) {cb ce : Criteria}
    (hcb : base.compile identity config = .ok cb) (hce : ext.compile identity config = .ok ce)
    {s₁ s₂ : PredicateSet} {f₁ f₂ : Forest} (hb' : cb.Lays s₁ f₁) (he' : ce.Lays s₂ f₂)
    (hm : base.extend ext = .ok merged) :
    ∃ cm, merged.compile identity config = .ok cm ∧
      cm.tree = .ofForest (s₁.united s₂) (f₁ ++ f₂) := by
  have hmerged : merged.Reachable := .extend hb he hm
  have hcompleteb := hb.complete_of_compile hcb
  have hcompletee := he.complete_of_compile hce
  obtain ⟨-, -, hct₁, -⟩ := compile_eq_ok hcb
  obtain ⟨-, -, hct₂, -⟩ := compile_eq_ok hce
  have htreeb : base.tree = .ofForest s₁ f₁ := hct₁.symm.trans hb'.tree
  have htreee : ext.tree = .ofForest s₂ f₂ := hct₂.symm.trans he'.tree
  obtain ⟨-, -, s, hs, rfl⟩ := extend_eq_ok.1 hm
  rw [htreeb, htreee, Tree.node_root_ofForest, Tree.node_root_ofForest] at hs
  obtain ⟨-, -, rfl⟩ := PredicateSet.merge_eq_ok.1 hs
  have htree : base.tree.join ext.tree (s₁.united s₂) = .ofForest (s₁.united s₂) (f₁ ++ f₂) := by
    rw [htreeb, htreee, Tree.join_ofForest]
  have hcomplete : Complete ⟨base.tree.join ext.tree (s₁.united s₂), Tree.root,
      mergeSortKeys base.sortKeys ext.sortKeys⟩ := by
    refine ⟨rfl, fun key hkey => ?_⟩
    rcases mem_mergeSortKeys hkey with hkey | hkey
    · exact hcompleteb.directed key hkey
    · exact hcompletee.directed key hkey
  have hfull : (f₁ ++ f₂).isFull = true := by
    rw [Forest.isFull_append, hb'.full, he'.full]
    rfl
  rw [hmerged.compile_of_complete hcomplete, htree, Tree.closingPlan_ofForest, if_pos hfull]
  exact ⟨_, rfl, rfl⟩

end Query

/-! ## Evaluating the extended query -/

namespace Criteria

variable {c c' : Criteria} {identity : IdentityResolver} {config : Config} {s s' : PredicateSet}
  {f : Forest} {resolve : ExpressionResolver} {task : Task}

/-- A compiled query evaluates the filters of `s'` in its group `s`, and all filters of the groups
of `f`, as another query does in which both stand as they are. -/
structure Follows (c c' : Criteria) (s s' : PredicateSet) (f : Forest) : Prop where
  root : ∀ resolve task, ∀ x ∈ s'.filters,
    c.filterOutcome resolve task s x = c'.filterOutcome resolve task s' x
  below : ∀ resolve task,
    f.All fun _ r => c.ownOutcomes resolve task r = c'.ownOutcomes resolve task r

/-- A compiled query knows the candidate users of all its groups. -/
theorem expands_groups {q : Query} (hc : q.compile identity config = .ok c)
    (htree : c.tree = .ofForest s f) :
    c.Expands identity config s ∧ f.All fun _ r => c.Expands identity config r := by
  have hnodes := expands_of_compile hc
  rw [htree] at hnodes
  exact (Tree.forall_nodes_ofForest (P := fun _ r => c.Expands identity config r)).1 hnodes

theorem follows_of_expands (hescape : c.likeEscape = c'.likeEscape)
    (hs : c.Expands identity config s ∧ f.All fun _ r => c.Expands identity config r)
    (hs' : c'.Expands identity config s' ∧ f.All fun _ r => c'.Expands identity config r)
    (hmodifiers : s.SameModifiers s') (hfilters : ∀ x ∈ s'.filters, x ∈ s.filters) :
    c.Follows c' s s' f := by
  refine ⟨fun resolve task x hx => ?_, fun resolve task => ?_⟩
  · exact filterOutcome_congr hescape hs.1 hs'.1 hmodifiers (hfilters x hx) hx
  · exact Forest.All.imp₂ (fun _ r => ownOutcomes_congr hescape) hs.2 hs'.2

theorem Follows.forall_root (h : c.Follows c' s s' f) (P : Except BackendError Bool → Prop) :
    (∀ x ∈ s'.filters, P (c.filterOutcome resolve task s x)) ↔
      ∀ x ∈ s'.filters, P (c'.filterOutcome resolve task s' x) := by
  refine forall₂_congr fun x hx => ?_
  rw [h.root resolve task x hx]

theorem Follows.all_evaluate (h : c.Follows c' s s' f) :
    (f.All fun _ r => c.Evaluates resolve task r) ↔
      f.All fun _ r => c'.Evaluates resolve task r := by
  refine Forest.All.congr ((h.below resolve task).imp fun _ r hr => ?_)
  rw [evaluates_iff, evaluates_iff, hr]

theorem Follows.outcomes (h : c.Follows c' s s' f) :
    f.outcomes (c.results resolve task) = f.outcomes (c'.results resolve task) := by
  refine Forest.outcomes_congr ((h.below resolve task).imp fun _ r hr => ?_)
  rw [results, results, hr]

section United

variable {cm cb ce : Criteria} {s₁ s₂ : PredicateSet} {f₁ f₂ : Forest}
  (hind : s₁.Independent s₂) (h₁ : PredicateSet.Sound .and s₁) (h₂ : PredicateSet.Sound .and s₂)
  (hb : cm.Follows cb (s₁.united s₂) s₁ f₁) (he : cm.Follows ce (s₁.united s₂) s₂ f₂)

include hind h₁ h₂ hb he

/-- All filters have an outcome if those of both queries have. -/
theorem allEvaluate_united :
    cm.AllEvaluate resolve task (s₁.united s₂) (f₁ ++ f₂) ↔
      cb.AllEvaluate resolve task s₁ f₁ ∧ ce.AllEvaluate resolve task s₂ f₂ := by
  have hroot : cm.Evaluates resolve task (s₁.united s₂) ↔
      cb.Evaluates resolve task s₁ ∧ ce.Evaluates resolve task s₂ := by
    rw [Evaluates, hind.forall_filters h₁ h₂, hb.forall_root fun r => ∃ b, r = .ok b,
      he.forall_root fun r => ∃ b, r = .ok b]
    rfl
  rw [AllEvaluate, hroot, Forest.all_append, hb.all_evaluate, he.all_evaluate, AllEvaluate,
    AllEvaluate, and_and_and_comm]

variable (hm : cm.tree = .ofForest (s₁.united s₂) (f₁ ++ f₂)) (hbt : cb.tree = .ofForest s₁ f₁)
  (het : ce.tree = .ofForest s₂ f₂)

include hm hbt het

theorem holds_united :
    cm.holds resolve task = .ok true ↔
      cb.holds resolve task = .ok true ∧ ce.holds resolve task = .ok true := by
  rw [holds_eq_true hm, holds_eq_true hbt, holds_eq_true het,
    allEvaluate_united hind h₁ h₂ hb he, hind.forall_filters h₁ h₂, hb.forall_root (· = .ok true),
    he.forall_root (· = .ok true), Forest.outcomes_append, List.forall_mem_append, hb.outcomes,
    he.outcomes]
  constructor
  · rintro ⟨⟨hevalb, hevale⟩, ⟨hrootb, hroote⟩, hbelowb, hbelowe⟩
    exact ⟨⟨hevalb, hrootb, hbelowb⟩, hevale, hroote, hbelowe⟩
  · rintro ⟨⟨hevalb, hrootb, hbelowb⟩, hevale, hroote, hbelowe⟩
    exact ⟨⟨hevalb, hevale⟩, ⟨hrootb, hroote⟩, hbelowb, hbelowe⟩

theorem fails_united :
    (∃ e, cm.holds resolve task = .error e) ↔
      (∃ e, cb.holds resolve task = .error e) ∨ ∃ e, ce.holds resolve task = .error e := by
  rw [holds_eq_error hm, holds_eq_error hbt, holds_eq_error het,
    allEvaluate_united hind h₁ h₂ hb he, Classical.not_and_iff_not_or_not]

end United

end Criteria

/-- Extending a query by an independent one is conjunction.

Both queries compile, and their root groups share no dimension and no key of a variable and have
the same modifiers.  Then the extended query compiles as well, with the same resolver of identities
and the same settings, and its evaluation on any task gives true exactly if that of both does and
fails exactly if that of one does. -/
theorem Query.extend_conjunction {base ext merged : Query} (hb : base.Reachable)
    (he : ext.Reachable) {identity : IdentityResolver} {config : Config} {cb ce : Criteria}
    (hcb : base.compile identity config = .ok cb) (hce : ext.compile identity config = .ok ce)
    (hind : (base.tree.node Tree.root).predicates.Independent (ext.tree.node Tree.root).predicates)
    (hm : base.extend ext = .ok merged) :
    ∃ cm, merged.compile identity config = .ok cm ∧ ∀ resolve task,
      (cm.holds resolve task = .ok true ↔
        cb.holds resolve task = .ok true ∧ ce.holds resolve task = .ok true) ∧
      ((∃ e, cm.holds resolve task = .error e) ↔
        (∃ e, cb.holds resolve task = .error e) ∨ ∃ e, ce.holds resolve task = .error e) := by
  obtain ⟨s₁, f₁, hb'⟩ := hb.lays hcb
  obtain ⟨s₂, f₂, he'⟩ := he.lays hce
  obtain ⟨cm, hcm, htree⟩ := hb.compile_extend he hcb hce hb' he' hm
  obtain ⟨-, -, htreeb, hescapeb⟩ := compile_eq_ok hcb
  obtain ⟨-, -, htreee, hescapee⟩ := compile_eq_ok hce
  obtain ⟨-, -, -, hescape⟩ := compile_eq_ok hcm
  rw [← htreeb, ← htreee, hb'.node_root, he'.node_root] at hind
  obtain ⟨hroot, hbelow⟩ := Criteria.expands_groups hcm htree
  rw [Forest.all_append] at hbelow
  have hfilters := hind.mem_filters_united hb'.root he'.root
  have hfb : cm.Follows cb (s₁.united s₂) s₁ f₁ :=
    Criteria.follows_of_expands (hescape.trans hescapeb.symm) ⟨hroot, hbelow.1⟩
      (Criteria.expands_groups hcb hb'.tree) hind.modifiers_left
      fun x hx => (hfilters x).2 (.inl hx)
  have hfe : cm.Follows ce (s₁.united s₂) s₂ f₂ :=
    Criteria.follows_of_expands (hescape.trans hescapee.symm) ⟨hroot, hbelow.2⟩
      (Criteria.expands_groups hce he'.tree) hind.modifiers_right
      fun x hx => (hfilters x).2 (.inr hx)
  refine ⟨cm, hcm, fun resolve task => ⟨?_, ?_⟩⟩
  · exact Criteria.holds_united hind hb'.root he'.root hfb hfe htree hb'.tree he'.tree
  · exact Criteria.fails_united hind hb'.root he'.root hfb hfe htree hb'.tree he'.tree

/-- Candidate users on both sides, one of them in a group below the root; the expression of the
extension has a value for one resolver and none for the other. -/
theorem Query.extend_conjunction_built :
    ∃ (base ext merged : Query) (cm : Criteria) (task : Task),
      (base.Reachable ∧ ext.Reachable) ∧
        (base.tree.node Tree.root).predicates.Independent (ext.tree.node Tree.root).predicates ∧
        base.extend ext = .ok merged ∧ merged.compile (fun _ => ["staff"]) {} = .ok cm ∧
          cm.holds (fun _ => .ok (.text "eve")) task = .ok true ∧
            ∃ e, cm.holds (fun x => .error (.unknownExpression x)) task = .error e := by
  let base := built [.setTerm .candidateUser (.text "ada") rfl,
    .compareVariable "state" .equals (.string "open") .taskLocal true]
  let ext := built [.setExpression .owner "boss" rfl, .openGroup .or,
    .setTerm .candidateUser (.text "bob") rfl, .setFlag .withoutDueDate, .closeGroup .or]
  let task : Task :=
    { owner := some "eve", candidateGroups := ["staff"],
      storedVariables := [⟨"state", .string "open", .taskLocal⟩] }
  have hb : base.Reachable := reachable_built _
  have he : ext.Reachable := reachable_built _
  have hdimensions : Dimension.all.toList.all (fun d =>
      !((base.tree.node Tree.root).predicates.hasPredicate d &&
        (ext.tree.node Tree.root).predicates.hasPredicate d)) = true := by
    decide +kernel
  have hmodifiers : Flag.all.toList.all (fun f =>
      (base.tree.node Tree.root).predicates.hasFlag f ==
        (ext.tree.node Tree.root).predicates.hasFlag f) = true := by
    decide +kernel
  have hind : (base.tree.node Tree.root).predicates.Independent
      (ext.tree.node Tree.root).predicates := by
    refine ⟨fun d hd => ?_, by decide +kernel, fun f _ => ?_⟩
    · have hd' := List.all_eq_true.1 hdimensions d (Vector.mem_toList_iff.2 (Dimension.mem_all d))
      rw [hd.1, hd.2] at hd'
      cases hd'
    · exact eq_of_beq
        (List.all_eq_true.1 hmodifiers f (Vector.mem_toList_iff.2 (Flag.mem_all f)))
  have hbase : (base.compile (fun _ => ["staff"]) {}).toOption.map
      (fun c => (c.holds (fun _ => .ok (.text "eve")) task).toOption) = some (some true) := by
    decide +kernel
  have hext : (ext.compile (fun _ => ["staff"]) {}).toOption.map
      (fun c => ((c.holds (fun _ => .ok (.text "eve")) task).toOption,
        (c.holds (fun x => .error (.unknownExpression x)) task).toOption)) =
          some (some true, none) := by
    decide +kernel
  have hmerged : (base.extend ext).toOption.isSome = true := by decide +kernel
  obtain ⟨cb, hcb, hbTrue⟩ := Option.map_eq_some_iff.1 hbase
  obtain ⟨ce, hce, heBoth⟩ := Option.map_eq_some_iff.1 hext
  obtain ⟨heTrue, heFails⟩ := Prod.mk.inj heBoth
  obtain ⟨merged, hm⟩ := Option.isSome_iff_exists.1 hmerged
  rw [toOption_eq_some] at hcb hce hm hbTrue heTrue
  rw [toOption_eq_none] at heFails
  obtain ⟨cm, hcm, hevaluation⟩ := extend_conjunction hb he hcb hce hind hm
  exact ⟨base, ext, merged, cm, task, ⟨hb, he⟩, hind, hm, hcm,
    (hevaluation _ task).1.2 ⟨hbTrue, heTrue⟩, (hevaluation _ task).2.2 (.inr heFails)⟩

end Worklist
