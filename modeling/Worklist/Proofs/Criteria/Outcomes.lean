import Worklist.Proofs.Criteria.Filters
import Worklist.Proofs.Tree.Outcomes

/-!
# Outcomes of compiled queries

The evaluation of a compiled query as a statement about its groups: it fails if some filter cannot
be evaluated, and gives true if all filters of the root and all groups below the root hold.

* `Criteria.Evaluates` says that the filters of a group can be evaluated, and `results` are their
  outcomes then.
* `holds_eq_error` and `holds_eq_true` are the two readings of an evaluation.
-/

namespace Worklist.Criteria

variable {c : Criteria} {resolve : ExpressionResolver} {task : Task} {s : PredicateSet} {f : Forest}

/-! ## The filters of one group -/

/-- Every filter of a group has an outcome. -/
def Evaluates (c : Criteria) (resolve : ExpressionResolver) (task : Task) (s : PredicateSet) :
    Prop :=
  ∀ x ∈ s.filters, ∃ b, c.filterOutcome resolve task s x = .ok b

/-- The outcomes of the filters of a group, or none if a filter fails. -/
def results (c : Criteria) (resolve : ExpressionResolver) (task : Task) (s : PredicateSet) :
    List Bool :=
  (c.ownOutcomes resolve task s).toOption.getD []

theorem evaluates_iff :
    c.Evaluates resolve task s ↔ ∃ bs, c.ownOutcomes resolve task s = .ok bs := by
  rw [ownOutcomes_eq, exists_mapM_eq_ok, Evaluates]

theorem Evaluates.ownOutcomes (h : c.Evaluates resolve task s) :
    c.ownOutcomes resolve task s = .ok (c.results resolve task s) := by
  obtain ⟨bs, hbs⟩ := evaluates_iff.1 h
  rw [results, hbs]
  rfl

theorem Evaluates.forall_results (h : c.Evaluates resolve task s) :
    (∀ b ∈ c.results resolve task s, b = true) ↔
      ∀ x ∈ s.filters, c.filterOutcome resolve task s x = .ok true := by
  have hresults := h.ownOutcomes
  rw [ownOutcomes_eq] at hresults
  exact forall_eq_of_mapM hresults true

/-! ## All groups -/

/-- Every filter of the root and of the groups below it has an outcome. -/
def AllEvaluate (c : Criteria) (resolve : ExpressionResolver) (task : Task) (s : PredicateSet)
    (f : Forest) : Prop :=
  c.Evaluates resolve task s ∧ f.All fun _ s => c.Evaluates resolve task s

theorem allEvaluate_iff : c.AllEvaluate resolve task s f ↔
    ∀ id < (Tree.ofForest s f).size,
      c.Evaluates resolve task ((Tree.ofForest s f).node id).predicates :=
  (Tree.forall_positions_ofForest (P := fun _ s => c.Evaluates resolve task s)).symm

/-- The evaluation succeeds exactly if all filters have an outcome. -/
theorem exists_holds_eq_ok (h : c.tree = .ofForest s f) :
    (∃ b, c.holds resolve task = .ok b) ↔ c.AllEvaluate resolve task s f := by
  have hpre : (Tree.ofForest s f).preorder = List.range (Tree.ofForest s f).size := by
    rw [Tree.preorder_ofForest, Tree.size_ofForest]
  simp only [allEvaluate_iff, evaluates_iff]
  rw [← Tree.evaluate_eq_ok (Tree.ascending_ofForest s f) hpre, holds, h]
  constructor
  · rintro ⟨b, hb⟩
    obtain ⟨outcomes, houtcomes, -⟩ := bind_eq_ok.1 hb
    exact ⟨outcomes, houtcomes⟩
  · rintro ⟨outcomes, houtcomes⟩
    exact ⟨_, bind_eq_ok.2 ⟨outcomes, houtcomes, rfl⟩⟩

theorem holds_eq_error (h : c.tree = .ofForest s f) :
    (∃ e, c.holds resolve task = .error e) ↔ ¬c.AllEvaluate resolve task s f := by
  rw [← exists_holds_eq_ok h]
  cases c.holds resolve task <;> simp

/-- The evaluation gives the outcomes of the root and of the groups below it, joined by AND. -/
theorem AllEvaluate.holds (he : c.AllEvaluate resolve task s f) (h : c.tree = .ofForest s f) :
    c.holds resolve task = .ok
      ((c.results resolve task s ++ f.outcomes (c.results resolve task)).all id) := by
  have hown : ∀ id < (Tree.ofForest s f).size,
      c.ownOutcomes resolve task ((Tree.ofForest s f).node id).predicates =
        .ok (c.results resolve task ((Tree.ofForest s f).node id).predicates) := by
    intro id hid
    exact (allEvaluate_iff.1 he id hid).ownOutcomes
  obtain ⟨outcomes, heval, hat⟩ := Tree.evaluate_spec (Tree.ascending_ofForest s f)
    (by rw [Tree.preorder_ofForest, Tree.size_ofForest]) hown
  have hroot := hat Tree.root (by rw [Tree.size_ofForest]; exact Nat.succ_pos f.size)
  rw [Tree.outcome_root_ofForest] at hroot
  rw [Criteria.holds, h, heval, ok_bind, hroot]
  rfl

theorem holds_eq_true (h : c.tree = .ofForest s f) :
    c.holds resolve task = .ok true ↔ c.AllEvaluate resolve task s f ∧
      (∀ x ∈ s.filters, c.filterOutcome resolve task s x = .ok true) ∧
        ∀ b ∈ f.outcomes (c.results resolve task), b = true := by
  constructor
  · intro htrue
    have he := (exists_holds_eq_ok h).1 ⟨true, htrue⟩
    rw [he.holds h, Except.ok.injEq, List.all_append, Bool.and_eq_true, List.all_eq_true,
      List.all_eq_true] at htrue
    exact ⟨he, he.1.forall_results.1 htrue.1, htrue.2⟩
  · rintro ⟨he, hroot, hbelow⟩
    rw [he.holds h, Except.ok.injEq, List.all_append, Bool.and_eq_true, List.all_eq_true,
      List.all_eq_true]
    exact ⟨he.1.forall_results.2 hroot, hbelow⟩

end Worklist.Criteria
