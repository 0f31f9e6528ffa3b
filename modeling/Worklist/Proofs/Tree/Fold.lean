import Worklist.Evaluation
import Worklist.Proofs.Tree.Forest

/-!
# Values by recursion over a tree

`Tree.fold` computes a value for every group from the values of its children.
The recursion is bounded by the number of nodes, which is never reached in a
tree whose children stand behind their parents; there `fold_eq` is the plain
recursion equation.

* `fold_map` carries a function through the recursion.
* `subtree_eq` is the recursion equation of the pre-order, and
  `preorder_ofForest` says that the layout of a forest is its pre-order.
* `evaluate_spec` says that the loop which evaluates the groups backwards and
  keeps their outcomes in an array computes the recursive outcome of every
  group.
-/

namespace Worklist

namespace Tree

variable {α β : Type}

/-- The value of a group from the values of its children, at most `depth` levels down. -/
def foldWithin (t : Tree) (f : NodeId → List α → α) : Nat → NodeId → α
  | 0, id => f id []
  | depth + 1, id => f id ((t.node id).children.map (t.foldWithin f depth))

/-- The value of a group from the values of its children. -/
def fold (t : Tree) (f : NodeId → List α → α) (id : NodeId) : α := t.foldWithin f t.size id

/-- A position outside the array has no children. -/
theorem children_of_size_le {t : Tree} {id : Nat} (h : t.size ≤ id) :
    (t.node id).children = [] := by
  have hnone : t.nodes[id]? = none := Array.getElem?_eq_none_iff.2 h
  rw [node, hnone]
  rfl

/-- One more level changes nothing, as soon as the levels reach the end of the array. -/
theorem foldWithin_succ {t : Tree} (ht : t.Ascending) (f : NodeId → List α → α) (depth id : Nat)
    (h : t.size - id ≤ depth) : t.foldWithin f (depth + 1) id = t.foldWithin f depth id := by
  induction depth generalizing id with
  | zero =>
    rw [foldWithin, foldWithin, children_of_size_le (by omega)]
    rfl
  | succ depth ih =>
    rw [foldWithin, foldWithin]
    congr 1
    refine List.map_congr_left fun child hc => ?_
    obtain ⟨hlt, hsize⟩ := ht id child hc
    exact ih child (by omega)

/-- The recursion equation: the value of a group from those of its children. -/
theorem fold_eq {t : Tree} (ht : t.Ascending) (f : NodeId → List α → α) (id : Nat) :
    t.fold f id = f id ((t.node id).children.map (t.fold f)) := by
  rw [fold, ← foldWithin_succ ht f t.size id (by omega), foldWithin]
  rfl

/-- A function that follows one step of the recursion follows the whole recursion. -/
theorem fold_map {t : Tree} (ht : t.Ascending) {f : NodeId → List α → α} {g : NodeId → List β → β}
    (k : α → β) (h : ∀ id xs, k (f id xs) = g id (xs.map k)) (id : Nat) :
    k (t.fold f id) = t.fold g id := by
  induction id using ht.induction with
  | step id ih =>
    rw [fold_eq ht, fold_eq ht, h, List.map_map]
    congr 1
    exact List.map_congr_left ih

/-! ## Pre-order -/

/-- The walk over the outermost groups of a carried forest lists its positions. -/
theorem Carries.visit {t : Tree} {f : Forest} {parent first depth : Nat} (later : List NodeId)
    (h : t.Carries parent first f) (hd : f.size ≤ depth) :
    (f.tops first).foldr (t.visit depth) later = List.range' first f.size ++ later := by
  induction f generalizing parent first depth later with
  | nil => rfl
  | cons c s below after ihb iha =>
    obtain ⟨hnode, hbelow, hafter⟩ := h
    rw [Forest.range'_size_cons]
    rw [Forest.size] at hd
    obtain ⟨depth, rfl⟩ : ∃ d, depth = d + 1 := ⟨depth - 1, by omega⟩
    rw [Forest.tops, List.foldr_cons, iha later hafter (by omega), Tree.visit,
      node_eq_of_get? hnode, ihb _ hbelow (by omega), List.cons_append, List.append_assoc]

/-- The layout of a forest is its pre-order. -/
theorem preorder_ofForest (s : PredicateSet) (f : Forest) :
    (ofForest s f).preorder = List.range (f.size + 1) := by
  rw [preorder, subtree, size_ofForest, Tree.visit, node_root_ofForest,
    (carries_ofForest s f).visit [] (Nat.le_refl _), List.append_nil, List.range_eq_range',
    List.range'_succ]
  rfl

/-- The walk lists a group in front of the subtrees of its children. -/
theorem visit_eq {t : Tree} (ht : t.Ascending) (depth : Nat) (id : Nat) (later : List NodeId)
    (h : t.size - id ≤ depth) :
    t.visit depth id later = t.fold (fun id below => id :: below.flatten) id ++ later := by
  induction depth generalizing id later with
  | zero =>
    rw [Tree.visit, fold_eq ht, children_of_size_le (by omega)]
    rfl
  | succ depth ih =>
    have hchildren : ∀ children : List Nat, (∀ child ∈ children, t.size - child ≤ depth) →
        children.foldr (t.visit depth) later =
          (children.map (t.fold fun id below => id :: below.flatten)).flatten ++ later := by
      intro children hd
      induction children with
      | nil => rfl
      | cons child children ihc =>
        rw [List.forall_mem_cons] at hd
        rw [List.foldr_cons, ihc hd.2, ih child _ hd.1, List.map_cons, List.flatten_cons,
          List.append_assoc]
    rw [Tree.visit, fold_eq ht, hchildren, List.cons_append]
    intro child hc
    obtain ⟨hlt, hsize⟩ := ht id child hc
    omega

theorem subtree_eq_fold {t : Tree} (ht : t.Ascending) (id : Nat) :
    t.subtree id = t.fold (fun id below => id :: below.flatten) id := by
  rw [subtree, visit_eq ht t.size id [] (by omega), List.append_nil]

/-- The pre-order of a subtree: a group in front of the subtrees of its children. -/
theorem subtree_eq {t : Tree} (ht : t.Ascending) (id : Nat) :
    t.subtree id = id :: (t.node id).children.flatMap t.subtree := by
  have hmap : (t.node id).children.map t.subtree =
      (t.node id).children.map (t.fold fun id below => id :: below.flatten) :=
    List.map_congr_left fun child _ => subtree_eq_fold ht child
  rw [subtree_eq_fold ht, fold_eq ht, ← hmap, List.flatMap_def]

/-- What the groups of a subtree contribute in pre-order, by recursion. -/
theorem flatMap_subtree {t : Tree} (ht : t.Ascending) (g : NodeId → List α) (id : Nat) :
    (t.subtree id).flatMap g = t.fold (fun id below => g id ++ below.flatten) id := by
  rw [subtree_eq_fold ht]
  refine fold_map ht (List.flatMap g) ?_ id
  intro id below
  have hflatten : below.flatten.flatMap g = (below.map (List.flatMap g)).flatten := by
    induction below with
    | nil => rfl
    | cons ids below ih =>
      rw [List.flatten_cons, List.flatMap_append, ih, List.map_cons, List.flatten_cons]
  rw [List.flatMap_cons, hflatten]

/-! ## The loop over the groups -/

/-- The outcome of a group by recursion: its own outcomes and those of its children, combined by
its connective. -/
def outcome (t : Tree) (own : NodeId → List Bool) : NodeId → Bool :=
  t.fold fun id nested => (t.node id).connective.combine (own id ++ nested)

theorem outcome_eq {t : Tree} (ht : t.Ascending) (own : NodeId → List Bool) (id : Nat) :
    t.outcome own id =
      (t.node id).connective.combine (own id ++ (t.node id).children.map (t.outcome own)) :=
  fold_eq ht _ id

/-- One step of the loop records the outcome of a group whose children have theirs. -/
theorem evaluateGroup_eq {t : Tree} (ht : t.Ascending) {own : NodeId → List Bool}
    {results : NodeId → Except BackendError (List Bool)} (outcomes : Array Bool) {id : Nat}
    (hown : results id = .ok (own id))
    (hnested : ∀ child ∈ (t.node id).children, outcomes[child]? = some (t.outcome own child)) :
    t.evaluateGroup results outcomes id = .ok (outcomes.setIfInBounds id (t.outcome own id)) := by
  have hmap : (t.node id).children.map (fun child => outcomes[child]?.getD true) =
      (t.node id).children.map (t.outcome own) := by
    refine List.map_congr_left fun child hc => ?_
    rw [hnested child hc, Option.getD_some]
  rw [outcome_eq ht, ← hmap, evaluateGroup, hown]
  rfl

/-- The rest of the loop, from the groups below `k` down to the root. -/
theorem foldlM_evaluateGroup {t : Tree} (ht : t.Ascending) {own : NodeId → List Bool}
    {results : NodeId → Except BackendError (List Bool)} (k : Nat) (hk : k ≤ t.size)
    (hown : ∀ id < k, results id = .ok (own id)) (outcomes : Array Bool)
    (hsize : outcomes.size = t.size)
    (hdone : ∀ id, k ≤ id → id < t.size → outcomes[id]? = some (t.outcome own id)) :
    ∃ final, (List.range k).reverse.foldlM (t.evaluateGroup results) outcomes = .ok final ∧
      ∀ id < t.size, final[id]? = some (t.outcome own id) := by
  induction k generalizing outcomes with
  | zero => exact ⟨outcomes, rfl, fun id hid => hdone id (Nat.zero_le id) hid⟩
  | succ k ih =>
    have hstep := evaluateGroup_eq ht outcomes (hown k (Nat.lt_succ_self k))
      fun child hc => hdone child (ht k child hc).1 (ht k child hc).2
    rw [List.range_succ, List.reverse_append, List.reverse_singleton, List.singleton_append,
      List.foldlM_cons, hstep]
    refine ih (by omega) (fun id hid => hown id (by omega)) _ (by simpa using hsize) ?_
    intro id hlo hhi
    rw [Array.getElem?_setIfInBounds]
    split
    · rename_i heq
      rw [if_pos (by omega), ← heq]
    · exact hdone id (by omega) hhi

/-- The loop computes the recursive outcome of every group. -/
theorem evaluate_spec {t : Tree} (ht : t.Ascending) (hpre : t.preorder = List.range t.size)
    {own : NodeId → List Bool} {results : NodeId → Except BackendError (List Bool)}
    (hown : ∀ id < t.size, results id = .ok (own id)) :
    ∃ outcomes, t.evaluate results = .ok outcomes ∧
      ∀ id < t.size, outcomes[id]? = some (t.outcome own id) := by
  rw [evaluate, hpre]
  refine foldlM_evaluateGroup ht t.size (Nat.le_refl _) hown _ (by simp) ?_
  intro id hlo hhi
  omega

end Tree

end Worklist
