import Worklist.Proofs.Criteria.Outcomes

/-!
# Evaluations that can only grow

AND and OR never turn a group down because something in it holds, so a compiled query that holds
still does when its filters hold more often.

* `Criteria.passes` is the outcome of a group with everything below it; `passes_of_and` and
  `passes_of_or` read it filter by filter, and `Lays.holds_eq_true` is the evaluation in terms of
  it.
* `Criteria.Yields` compares one group of two compiled queries, and `passes_mono` all of them, from
  the children to the parents.
* `Lays.holds_mono` is the result for whole queries.
-/

namespace Worklist

theorem Connective.combine_and_eq_true {outcomes : List Bool} :
    Connective.and.combine outcomes = true ↔ ∀ b ∈ outcomes, b = true := by
  rw [combine_and, List.all_eq_true]
  rfl

/-- Without any outcome an OR group holds as well. -/
theorem Connective.combine_or_eq_true {outcomes : List Bool} :
    Connective.or.combine outcomes = true ↔ outcomes = [] ∨ true ∈ outcomes := by
  rw [combine]
  cases outcomes with
  | nil => simp
  | cons b outcomes => simp

namespace Criteria

variable {c c' : Criteria} {resolve : ExpressionResolver} {task : Task} {s : PredicateSet}
  {f : Forest} {id : NodeId}

/-! ## The outcomes of one group -/

theorem Evaluates.true_mem_results (h : c.Evaluates resolve task s) :
    true ∈ c.results resolve task s ↔
      ∃ x ∈ s.filters, c.filterOutcome resolve task s x = .ok true := by
  have hmap := h.ownOutcomes
  rw [ownOutcomes_eq, mapM_eq_ok] at hmap
  have hmem : true ∈ c.results resolve task s ↔
      Except.ok true ∈ (c.results resolve task s).map (Except.ok (ε := BackendError)) := by
    simp
  rw [hmem, ← hmap, List.mem_map]

theorem Evaluates.results_eq_nil (h : c.Evaluates resolve task s) :
    c.results resolve task s = [] ↔ s.filters = [] := by
  have hmap := h.ownOutcomes
  rw [ownOutcomes_eq] at hmap
  rw [← List.length_eq_zero_iff, length_of_mapM hmap, List.length_eq_zero_iff]

/-- The outcome of a group with everything below it. -/
def passes (c : Criteria) (resolve : ExpressionResolver) (task : Task) : NodeId → Bool :=
  c.tree.outcome fun id => c.results resolve task (c.tree.node id).predicates

theorem passes_eq (ht : c.tree.Ascending) (id : NodeId) :
    c.passes resolve task id = (c.tree.node id).connective.combine
      (c.results resolve task (c.tree.node id).predicates ++
        (c.tree.node id).children.map (c.passes resolve task)) :=
  Tree.outcome_eq ht _ id

/-- An AND group passes if all its filters and all groups in it do. -/
theorem passes_of_and (ht : c.tree.Ascending)
    (he : c.Evaluates resolve task (c.tree.node id).predicates)
    (hand : (c.tree.node id).connective = .and) :
    c.passes resolve task id = true ↔
      (∀ x ∈ (c.tree.node id).predicates.filters,
        c.filterOutcome resolve task (c.tree.node id).predicates x = .ok true) ∧
      ∀ child ∈ (c.tree.node id).children, c.passes resolve task child = true := by
  rw [passes_eq ht, hand, Connective.combine_and_eq_true, List.forall_mem_append,
    he.forall_results, List.forall_mem_map]

/-- An OR group passes if one of its filters or one of the groups in it does, or if there is
nothing in it. -/
theorem passes_of_or (ht : c.tree.Ascending)
    (he : c.Evaluates resolve task (c.tree.node id).predicates)
    (hor : (c.tree.node id).connective = .or) :
    c.passes resolve task id = true ↔
      ((c.tree.node id).predicates.filters = [] ∧ (c.tree.node id).children = []) ∨
      (∃ x ∈ (c.tree.node id).predicates.filters,
        c.filterOutcome resolve task (c.tree.node id).predicates x = .ok true) ∨
      ∃ child ∈ (c.tree.node id).children, c.passes resolve task child = true := by
  rw [passes_eq ht, hor, Connective.combine_or_eq_true, List.append_eq_nil_iff, List.mem_append,
    he.results_eq_nil, he.true_mem_results, List.map_eq_nil_iff, List.mem_map]

/-! ## Whole queries -/

/-- The groups at the positions of a tree, and what a position outside stands for. -/
theorem Lays.forall_evaluates (h : c.Lays s f) :
    c.AllEvaluate resolve task s f ↔ ∀ id, c.Evaluates resolve task (c.tree.node id).predicates := by
  rw [allEvaluate_iff, ← h.tree]
  constructor
  · intro hin id
    rcases Nat.lt_or_ge id c.tree.size with hlt | hge
    · exact hin id hlt
    · have hnone : c.tree.nodes[id]? = none := Array.getElem?_eq_none_iff.2 hge
      rw [Tree.node, hnone]
      exact List.forall_mem_nil _
  · intro hall id _
    exact hall id

/-- The evaluation gives true if all filters have an outcome and the root passes. -/
theorem Lays.holds_eq_true (h : c.Lays s f) :
    c.holds resolve task = .ok true ↔
      (∀ id, c.Evaluates resolve task (c.tree.node id).predicates) ∧
        c.passes resolve task Tree.root = true := by
  have hroot : c.AllEvaluate resolve task s f →
      (c.holds resolve task = .ok true ↔ c.passes resolve task Tree.root = true) := by
    intro he
    rw [he.holds h.tree, Except.ok.injEq, passes, h.tree, Tree.outcome_root_ofForest]
  rw [← h.forall_evaluates]
  constructor
  · intro htrue
    have he := (exists_holds_eq_ok h.tree).1 ⟨true, htrue⟩
    exact ⟨he, (hroot he).1 htrue⟩
  · rintro ⟨he, hpasses⟩
    exact (hroot he).2 hpasses

/-! ## Two queries -/

/-- A group of a second query passes when the same group of the first one does, as far as the filters
of the group itself are concerned. -/
structure Yields (c c' : Criteria) (resolve : ExpressionResolver) (task : Task) (id : NodeId) :
    Prop where
  connective : (c'.tree.node id).connective = (c.tree.node id).connective
  children : (c'.tree.node id).children = (c.tree.node id).children
  all : (c.tree.node id).connective = .and →
    (∀ x ∈ (c.tree.node id).predicates.filters,
      c.filterOutcome resolve task (c.tree.node id).predicates x = .ok true) →
    ∀ x ∈ (c'.tree.node id).predicates.filters,
      c'.filterOutcome resolve task (c'.tree.node id).predicates x = .ok true
  any : (c.tree.node id).connective = .or →
    (∃ x ∈ (c.tree.node id).predicates.filters,
      c.filterOutcome resolve task (c.tree.node id).predicates x = .ok true) →
    ∃ x ∈ (c'.tree.node id).predicates.filters,
      c'.filterOutcome resolve task (c'.tree.node id).predicates x = .ok true
  bare : (c.tree.node id).connective = .or → (c.tree.node id).children = [] →
    (c.tree.node id).predicates.filters = [] → (c'.tree.node id).predicates.filters = []

/-- A group with the same filters yields to one in which each of them holds more often. -/
theorem yields_of_filters (hconnective : (c'.tree.node id).connective = (c.tree.node id).connective)
    (hchildren : (c'.tree.node id).children = (c.tree.node id).children)
    (hfilters : (c'.tree.node id).predicates.filters = (c.tree.node id).predicates.filters)
    (h : ∀ x ∈ (c.tree.node id).predicates.filters,
      c.filterOutcome resolve task (c.tree.node id).predicates x = .ok true →
      c'.filterOutcome resolve task (c'.tree.node id).predicates x = .ok true) :
    c.Yields c' resolve task id where
  connective := hconnective
  children := hchildren
  all _ htrue x hx := by
    rw [hfilters] at hx
    exact h x hx (htrue x hx)
  any _ htrue := by
    obtain ⟨x, hx, hout⟩ := htrue
    exact ⟨x, hfilters ▸ hx, h x hx hout⟩
  bare _ _ hnil := hfilters.trans hnil

/-- The step: a group passes in the second query if it does in the first one and the groups below it
follow. -/
theorem Yields.passes (h : c.Yields c' resolve task id) (ht : c.tree.Ascending)
    (ht' : c'.tree.Ascending) (he : c.Evaluates resolve task (c.tree.node id).predicates)
    (he' : c'.Evaluates resolve task (c'.tree.node id).predicates)
    (hbelow : ∀ child ∈ (c.tree.node id).children,
      c.passes resolve task child = true → c'.passes resolve task child = true)
    (hpasses : c.passes resolve task id = true) : c'.passes resolve task id = true := by
  cases hconnective : (c.tree.node id).connective with
  | and =>
    rw [passes_of_and ht he hconnective] at hpasses
    rw [passes_of_and ht' he' (h.connective.trans hconnective), h.children]
    exact ⟨h.all hconnective hpasses.1, fun child hc => hbelow child hc (hpasses.2 child hc)⟩
  | or =>
    rw [passes_of_or ht he hconnective] at hpasses
    rw [passes_of_or ht' he' (h.connective.trans hconnective), h.children]
    rcases hpasses with ⟨hfilters, hchildren⟩ | hsome | ⟨child, hc, hchild⟩
    · exact .inl ⟨h.bare hconnective hchildren hfilters, hchildren⟩
    · exact .inr (.inl (h.any hconnective hsome))
    · exact .inr (.inr ⟨child, hc, hbelow child hc hchild⟩)

/-- The induction from the children to the parents. -/
theorem passes_mono (ht : c.tree.Ascending) (ht' : c'.tree.Ascending)
    (he : ∀ id, c.Evaluates resolve task (c.tree.node id).predicates)
    (he' : ∀ id, c'.Evaluates resolve task (c'.tree.node id).predicates)
    (h : ∀ id, c.Yields c' resolve task id) (id : Nat) :
    c.passes resolve task id = true → c'.passes resolve task id = true := by
  induction id using ht.induction with
  | step id ih => exact (h id).passes ht ht' (he id) (he' id) ih

/-- A query that holds goes on doing so in a query to which all its groups yield. -/
theorem Lays.holds_mono {s' : PredicateSet} {f' : Forest} (h : c.Lays s f) (h' : c'.Lays s' f')
    (he' : ∀ id, c'.Evaluates resolve task (c'.tree.node id).predicates)
    (hyields : ∀ id, c.Yields c' resolve task id) (htrue : c.holds resolve task = .ok true) :
    c'.holds resolve task = .ok true := by
  rw [h.holds_eq_true] at htrue
  rw [h'.holds_eq_true]
  exact ⟨he', passes_mono h.ascending h'.ascending htrue.1 he' hyields _ htrue.2⟩

end Criteria

end Worklist
