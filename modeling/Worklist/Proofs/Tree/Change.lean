import Worklist.Proofs.Tree.Graft

/-!
# Changing the filters of one group

A change of the filters at one position leaves every other group and the shape of the tree as they
are.  In the layout of a forest it is a change of one group of the forest.

* `node_modifyPredicates` and its companions say what stands at a position after a change.
* `modifyPredicates_comm` and `addChild_modifyPredicates` exchange a change with one elsewhere and
  with a new group.
* `Forest.modifyAt` is the change of one group of a forest, and `modifyPredicates_ofForest` says that
  it is what a change of the layout amounts to.
-/

namespace Worklist

/-- A group with changed filters. -/
def Node.withChange (g : PredicateSet → PredicateSet) (n : Node) : Node :=
  { n with predicates := g n.predicates }

namespace Tree

variable (t : Tree) (id : NodeId) (g : PredicateSet → PredicateSet)

theorem toList_modifyPredicates :
    (t.modifyPredicates id g).nodes.toList = t.nodes.toList.modify id (Node.withChange g) := by
  rw [modifyPredicates, Array.toList_modify]
  rfl

@[simp] theorem size_modifyPredicates : (t.modifyPredicates id g).size = t.size := by
  rw [← length_toList, toList_modifyPredicates, List.length_modify, length_toList]

/-! ## What stands at a position -/

theorem node_eq_toList (i : NodeId) : t.node i = t.nodes.toList[i]?.getD default := by
  rw [node, Array.getElem?_toList]

/-- Other groups stay as they are. -/
theorem node_modifyPredicates_of_ne {i : NodeId} (h : i ≠ id) :
    (t.modifyPredicates id g).node i = t.node i := by
  rw [node_eq_toList, node_eq_toList, toList_modifyPredicates, List.getElem?_modify_ne _ _ h.symm]

/-- A group of the tree has its filters changed. -/
theorem node_modifyPredicates (h : id < t.size) :
    (t.modifyPredicates id g).node id = (t.node id).withChange g := by
  rw [← length_toList] at h
  rw [node_eq_toList, node_eq_toList, toList_modifyPredicates, List.getElem?_modify_eq,
    List.getElem?_eq_getElem h]
  rfl

/-- A position outside the tree stays outside. -/
theorem modifyPredicates_of_ge (h : t.size ≤ id) : t.modifyPredicates id g = t := by
  refine ext_toList ?_
  rw [toList_modifyPredicates, List.modify_eq_self]
  rwa [length_toList]

/-- Every group stays as it is but the one at the position, which has its filters changed. -/
theorem node_modifyPredicates_or (i : NodeId) :
    (t.modifyPredicates id g).node i = t.node i ∨
      i = id ∧ (t.modifyPredicates id g).node i = (t.node i).withChange g := by
  by_cases hi : i = id
  · subst hi
    rcases Nat.lt_or_ge i t.size with hlt | hge
    · exact .inr ⟨rfl, node_modifyPredicates t i g hlt⟩
    · rw [modifyPredicates_of_ge t i g hge]
      exact .inl rfl
  · exact .inl (node_modifyPredicates_of_ne t id g hi)

/-- The place of a group in the tree and its connective stay as they are. -/
theorem shape_modifyPredicates (i : NodeId) :
    ((t.modifyPredicates id g).node i).connective = (t.node i).connective ∧
      ((t.modifyPredicates id g).node i).parent = (t.node i).parent ∧
        ((t.modifyPredicates id g).node i).children = (t.node i).children := by
  rcases node_modifyPredicates_or t id g i with h | ⟨-, h⟩
  · rw [h]
    exact ⟨rfl, rfl, rfl⟩
  · rw [h]
    exact ⟨rfl, rfl, rfl⟩

/-! ## Exchanging changes -/

/-- Changes of different groups can be made in any order. -/
theorem modifyPredicates_comm {id i : NodeId} (h : i ≠ id) (g k : PredicateSet → PredicateSet) :
    (t.modifyPredicates i k).modifyPredicates id g =
      (t.modifyPredicates id g).modifyPredicates i k := by
  refine ext_toList (List.ext_getElem? fun j => ?_)
  simp only [toList_modifyPredicates, List.getElem?_modify]
  by_cases hi : i = j
  · have hid : id ≠ j := fun hid => h (hi.trans hid.symm)
    simp [hid]
  · simp [hi]

/-- A change of a group and a new group below some group can be made in any order. -/
theorem addChild_modifyPredicates {id : Nat} (h : id ≠ t.size) (parent : NodeId)
    (c : Connective) (g : PredicateSet → PredicateSet) :
    (t.addChild parent c).modifyPredicates id g = (t.modifyPredicates id g).addChild parent c := by
  rw [addChild_eq_attach, addChild_eq_attach]
  refine ext_toList ?_
  rw [toList_modifyPredicates, toList_attach, toList_attach, toList_modifyPredicates,
    size_modifyPredicates]
  rcases Nat.lt_or_ge id t.size with hlt | hge
  · rw [modify_append_left _ _ (by rwa [List.length_modify, length_toList])]
    congr 1
    refine List.ext_getElem? fun j => ?_
    simp only [List.getElem?_modify]
    split <;> split <;> simp [Node.withChange, addChildren, Function.comp_def]
  · have hout : t.nodes.toList.length ≤ id := by rwa [length_toList]
    rw [List.modify_eq_self hout, List.modify_eq_self]
    rw [List.length_append, List.length_modify, Forest.nodes_length]
    simp only [Forest.size]
    have hlength := t.length_toList
    omega

end Tree

/-! ## Forests -/

/-- A change behind the first of two lists. -/
theorem modify_append_right {α : Type} (f : α → α) (xs ys : List α) (i : Nat) :
    (xs ++ ys).modify (xs.length + i) f = xs ++ ys.modify i f := by
  induction xs with
  | nil => rw [List.nil_append, List.nil_append, List.length_nil, Nat.zero_add]
  | cons x xs ih =>
    rw [List.cons_append, List.length_cons, Nat.add_right_comm, List.modify_succ_cons, ih,
      List.cons_append]

namespace Forest

variable (g : PredicateSet → PredicateSet)

/-- Changes the filters of the group at a position, counted from the first group. -/
def modifyAt : Forest → Nat → Forest
  | nil, _ => nil
  | cons c s below after, 0 => cons c (g s) below after
  | cons c s below after, i + 1 =>
    if i < below.size then cons c s (below.modifyAt i) after
    else cons c s below (after.modifyAt (i - below.size))

@[simp] theorem size_modifyAt (f : Forest) (i : Nat) : (f.modifyAt g i).size = f.size := by
  induction f generalizing i with
  | nil => rfl
  | cons c s below after ihb iha =>
    cases i with
    | zero => rfl
    | succ i =>
      rw [modifyAt]
      split
      · rw [size, size, ihb]
      · rw [size, size, iha]

@[simp] theorem tops_modifyAt (f : Forest) (i first : Nat) :
    (f.modifyAt g i).tops first = f.tops first := by
  induction f generalizing i first with
  | nil => rfl
  | cons c s below after _ iha =>
    cases i with
    | zero => rfl
    | succ i =>
      rw [modifyAt]
      split
      · rw [tops, tops, size_modifyAt]
      · rw [tops, tops, iha]

/-- The layout of a changed forest is the changed layout. -/
theorem nodes_modifyAt (f : Forest) (i parent first : Nat) :
    (f.modifyAt g i).nodes parent first =
      (f.nodes parent first).modify i (Node.withChange g) := by
  induction f generalizing i parent first with
  | nil => rw [modifyAt, nodes, List.modify_nil]
  | cons c s below after ihb iha =>
    cases i with
    | zero => rfl
    | succ i =>
      rw [modifyAt, nodes, List.modify_succ_cons]
      split
      · rename_i hi
        rw [nodes, tops_modifyAt, size_modifyAt, ihb,
          modify_append_left _ _ (by rwa [nodes_length])]
      · rename_i hi
        have hback : i = (below.nodes first (first + 1)).length + (i - below.size) := by
          rw [nodes_length]
          omega
        rw [nodes, iha]
        conv =>
          rhs
          rw [hback, modify_append_right]

/-- A change within the first of two forests. -/
theorem modifyAt_append_left {f : Forest} {i : Nat} (h : i < f.size) (k : Forest) :
    (f ++ k).modifyAt g i = f.modifyAt g i ++ k := by
  induction f generalizing i with
  | nil => exact absurd h (Nat.not_lt_zero i)
  | cons c s below after _ iha =>
    cases i with
    | zero => rfl
    | succ i =>
      rw [size] at h
      rw [cons_append, modifyAt, modifyAt]
      split
      · rfl
      · rw [iha (by omega), cons_append]

/-- A change behind the first of two forests. -/
theorem modifyAt_append_right (f k : Forest) (i : Nat) :
    (f ++ k).modifyAt g (f.size + i) = f ++ k.modifyAt g i := by
  induction f with
  | nil => rw [nil_append, nil_append, size, Nat.zero_add]
  | cons c s below after _ iha =>
    have hpos : 1 + below.size + after.size + i = below.size + (after.size + i) + 1 := by omega
    have hnot : ¬below.size + (after.size + i) < below.size := by omega
    rw [cons_append, size, hpos, modifyAt, if_neg hnot, Nat.add_sub_cancel_left, iha, cons_append]

end Forest

/-- A change below the root of a layout is a change of its forest. -/
theorem Tree.modifyPredicates_ofForest (s : PredicateSet) (f : Forest) (i : Nat)
    (g : PredicateSet → PredicateSet) :
    (ofForest s f).modifyPredicates (i + 1) g = ofForest s (f.modifyAt g i) := by
  refine ext_toList ?_
  rw [toList_modifyPredicates, ofForest, ofForest, List.modify_succ_cons, Forest.nodes_modifyAt,
    Forest.tops_modifyAt]

end Worklist
