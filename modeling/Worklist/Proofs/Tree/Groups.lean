import Worklist.Proofs.Tree.Forest

/-!
# What holds of all groups

A property of all groups can be stated on a forest, on the nodes of its layout, or on the
positions of a tree that carries the forest.  The lemmas here move between the three.

* `forall_nodes` and `forall_nodes_ofForest` go from the forest to the list of nodes.
* `Carries.forall_positions` and `forall_positions_ofForest` go from the forest to the positions.
* `Carries.isFull_iff` says which positions make a forest full.
-/

namespace Worklist

namespace Forest

variable {P Q R : Connective → PredicateSet → Prop}

/-! ## Forests and lists of nodes -/

/-- Properties that agree on every group agree on the forest. -/
theorem All.congr {f : Forest} (h : f.All fun c s => P c s ↔ Q c s) : f.All P ↔ f.All Q := by
  induction f with
  | nil => exact Iff.rfl
  | cons c s below after ihb iha =>
    obtain ⟨hc, hbelow, hafter⟩ := h
    rw [All, All, hc, ihb hbelow, iha hafter]

theorem All.imp {f : Forest} (h : ∀ c s, P c s → Q c s) (hf : f.All P) : f.All Q := by
  induction f with
  | nil => trivial
  | cons c s below after ihb iha =>
    obtain ⟨hc, hbelow, hafter⟩ := hf
    exact ⟨h c s hc, ihb hbelow, iha hafter⟩

/-- Two properties of all groups give a third one if they do so for each group. -/
theorem All.imp₂ {f : Forest} (h : ∀ c s, P c s → Q c s → R c s) (hp : f.All P) (hq : f.All Q) :
    f.All R := by
  induction f with
  | nil => trivial
  | cons c s below after ihb iha =>
    obtain ⟨hpc, hpbelow, hpafter⟩ := hp
    obtain ⟨hqc, hqbelow, hqafter⟩ := hq
    exact ⟨h c s hpc hqc, ihb hpbelow hqbelow, iha hpafter hqafter⟩

theorem forall_nodes {f : Forest} {parent first : Nat} :
    (∀ n ∈ f.nodes parent first, P n.connective n.predicates) ↔ f.All P := by
  induction f generalizing parent first with
  | nil => simp [nodes, All]
  | cons c s below after ihb iha =>
    rw [nodes, List.forall_mem_cons, List.forall_mem_append, ihb, iha, All]

theorem isFull_append (f g : Forest) : (f ++ g).isFull = (f.isFull && g.isFull) := by
  induction f with
  | nil => rw [nil_append, isFull, Bool.true_and]
  | cons c s below after _ ih => simp only [cons_append, isFull, ih, Bool.and_assoc]

end Forest

namespace Tree

variable {P : Connective → PredicateSet → Prop}

theorem forall_nodes_ofForest {s : PredicateSet} {f : Forest} :
    (∀ n ∈ (ofForest s f).nodes.toList, P n.connective n.predicates) ↔ P .and s ∧ f.All P := by
  rw [ofForest, List.forall_mem_cons, Forest.forall_nodes]

/-! ## Positions -/

/-- The groups of a forest have a property if the nodes at its positions do. -/
theorem Carries.forall_positions {t : Tree} {f : Forest} {parent first : Nat}
    (h : t.Carries parent first f) :
    (∀ id ∈ List.range' first f.size, P (t.node id).connective (t.node id).predicates) ↔
      f.All P := by
  induction f generalizing parent first with
  | nil => simp [Forest.size, Forest.All]
  | cons c s below after ihb iha =>
    obtain ⟨hnode, hbelow, hafter⟩ := h
    rw [Forest.range'_size_cons, List.forall_mem_cons, List.forall_mem_append, ihb hbelow,
      iha hafter, node_eq_of_get? hnode, Forest.All]

/-- The positions below the root. -/
theorem mem_range'_ofForest {s : PredicateSet} {f : Forest} {id : Nat} :
    id ∈ List.range' 1 f.size ↔ id ≠ root ∧ id < (ofForest s f).size := by
  rw [List.mem_range'_1, size_ofForest, root]
  omega

theorem forall_positions_ofForest {s : PredicateSet} {f : Forest} :
    (∀ id < (ofForest s f).size,
      P ((ofForest s f).node id).connective ((ofForest s f).node id).predicates) ↔
        P .and s ∧ f.All P := by
  rw [← (carries_ofForest s f).forall_positions]
  constructor
  · intro h
    have hroot : root < (ofForest s f).size := by
      rw [size_ofForest]
      exact Nat.succ_pos f.size
    exact ⟨h root hroot, fun id hid => h id (mem_range'_ofForest.1 hid).2⟩
  · rintro ⟨hroot, hbelow⟩ id hid
    by_cases hid' : id = root
    · subst hid'
      exact hroot
    · exact hbelow id (mem_range'_ofForest.2 ⟨hid', hid⟩)

/-- A forest is full if every position of it has children or filters. -/
theorem Carries.isFull_iff {t : Tree} {f : Forest} {parent first : Nat}
    (h : t.Carries parent first f) :
    f.isFull = true ↔ ∀ id ∈ List.range' first f.size,
      (t.node id).children ≠ [] ∨ (t.node id).predicates.isEmpty = false := by
  induction f generalizing parent first with
  | nil => simp [Forest.size, Forest.isFull]
  | cons c s below after ihb iha =>
    obtain ⟨hnode, hbelow, hafter⟩ := h
    rw [Forest.range'_size_cons, List.forall_mem_cons, List.forall_mem_append, ← ihb hbelow,
      ← iha hafter, node_eq_of_get? hnode, Forest.isFull, ← Forest.isEmpty_tops (first + 1),
      Bool.and_eq_true, Bool.and_eq_true, Bool.not_eq_true', Bool.and_eq_false_iff, and_assoc,
      ne_eq, ← List.isEmpty_iff, Bool.not_eq_true]

end Tree

end Worklist
