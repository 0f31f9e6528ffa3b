import Worklist.Proofs.Outcome
import Worklist.Proofs.Tree.Fold
import Worklist.Proofs.Tree.Groups

/-!
# Outcomes of forests

The outcome of a group depends on what stands below it and on nothing else, so the outcomes of a
tree are those of its forest, without any positions.

* `Forest.outcomes` is the recursion over a forest.  It splits over forests side by side.
* `Carries.map_outcome` and `outcome_root_ofForest` read the outcomes of a tree off its forest.
* `evaluate_eq_ok` says that the loop over the groups fails only where a group fails.
-/

namespace Worklist

theorem Connective.combine_and (outcomes : List Bool) :
    Connective.and.combine outcomes = outcomes.all id := by
  cases outcomes <;> rfl

namespace Forest

/-- The outcomes of the outermost groups; `own` gives those of the filters of a group. -/
def outcomes (own : PredicateSet → List Bool) : Forest → List Bool
  | nil => []
  | cons c s below after => c.combine (own s ++ below.outcomes own) :: after.outcomes own

theorem outcomes_append (own : PredicateSet → List Bool) (f g : Forest) :
    (f ++ g).outcomes own = f.outcomes own ++ g.outcomes own := by
  induction f with
  | nil => rfl
  | cons c s below after _ ih => rw [cons_append, outcomes, outcomes, ih, List.cons_append]

/-- Only the outcomes of the filters count that stand in the forest. -/
theorem outcomes_congr {own own' : PredicateSet → List Bool} {f : Forest}
    (h : f.All fun _ s => own s = own' s) : f.outcomes own = f.outcomes own' := by
  induction f with
  | nil => rfl
  | cons c s below after ihb iha =>
    obtain ⟨hc, hbelow, hafter⟩ := h
    rw [outcomes, outcomes, hc, ihb hbelow, iha hafter]

end Forest

namespace Tree

variable {t : Tree}

/-! ## Trees and forests -/

theorem Carries.map_outcome (ht : t.Ascending) {f : Forest} {parent first : Nat}
    (h : t.Carries parent first f) (own : PredicateSet → List Bool) :
    (f.tops first).map (t.outcome fun id => own (t.node id).predicates) = f.outcomes own := by
  induction f generalizing parent first with
  | nil => rfl
  | cons c s below after ihb iha =>
    obtain ⟨hnode, hbelow, hafter⟩ := h
    rw [Forest.tops, List.map_cons, iha hafter, outcome_eq ht, node_eq_of_get? hnode, ihb hbelow,
      Forest.outcomes]

/-- The root holds if all its filters and all groups below it do. -/
theorem outcome_root_ofForest (s : PredicateSet) (f : Forest) (own : PredicateSet → List Bool) :
    (ofForest s f).outcome (fun id => own ((ofForest s f).node id).predicates) root =
      (own s ++ f.outcomes own).all id := by
  have ht := ascending_ofForest s f
  rw [outcome_eq ht, node_root_ofForest, (carries_ofForest s f).map_outcome ht,
    Connective.combine_and]

/-! ## The loop -/

/-- The loop over the groups succeeds if the filters of every group can be evaluated. -/
theorem evaluate_eq_ok (ht : t.Ascending) (hpre : t.preorder = List.range t.size)
    {results : NodeId → Except BackendError (List Bool)} :
    (∃ outcomes, t.evaluate results = .ok outcomes) ↔ ∀ id < t.size, ∃ bs, results id = .ok bs := by
  constructor
  · rintro ⟨outcomes, h⟩ id hid
    rw [evaluate, hpre] at h
    obtain ⟨before, after, hstep⟩ := exists_of_foldlM h id (by simpa using hid)
    obtain ⟨bs, hbs, -⟩ := bind_eq_ok.1 hstep
    exact ⟨bs, hbs⟩
  · intro h
    have hown : ∀ id < t.size, results id = .ok ((results id).toOption.getD []) := by
      intro id hid
      obtain ⟨bs, hbs⟩ := h id hid
      rw [hbs]
      rfl
    obtain ⟨outcomes, heval, -⟩ := evaluate_spec ht hpre hown
    exact ⟨outcomes, heval⟩

end Tree

end Worklist
