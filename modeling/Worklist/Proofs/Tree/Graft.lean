import Worklist.Proofs.Tree.Forest
import Worklist.Query.Merge

/-!
# Copying forests into trees

Merging copies the groups below the root of one tree below the root of
another.  The copy runs a stack over the source and appends the nodes one by
one, so that a copied group gets the next free position and its parent gets
one more child.

`Tree.attach` is what such a copy makes of the array as a whole: the parent
has the outermost groups of a forest as its last children, and the nodes of
the forest stand behind all others.

* `attach_append` and `attach_within` say how an attached forest grows, at
  its end and below its last group, and `node_attach` and
  `modifyPredicates_attach` read and change the group that was attached last.
* `graftAll_tops` is the invariant of the copy: the groups of a carried forest
  on top of the stack are attached, in as many steps as there are groups.
* `join_ofForest` is the result for two layouts: the layout of the two
  forests one behind the other.
-/

namespace Worklist

/-- A change within the first of two lists. -/
theorem modify_append_left {α : Type} (f : α → α) {xs : List α} (ys : List α) {i : Nat}
    (h : i < xs.length) : (xs ++ ys).modify i f = xs.modify i f ++ ys := by
  rw [List.modify_eq_take_cons_drop (by rw [List.length_append]; omega),
    List.modify_eq_take_cons_drop h, List.take_append_of_le_length (by omega),
    List.drop_append_of_le_length (by omega), List.getElem_append_left h, List.append_assoc,
    List.cons_append]

/-- A change at the seam of two lists. -/
theorem modify_length_append {α : Type} (f : α → α) (xs : List α) (y : α) (ys : List α) :
    (xs ++ y :: ys).modify xs.length f = xs ++ f y :: ys := by
  induction xs with
  | nil => rfl
  | cons x xs ih => rw [List.cons_append, List.length_cons, List.modify_succ_cons, ih,
      List.cons_append]

namespace Tree

open Forest

/-- A group with more children. -/
def addChildren (n : Node) (more : List NodeId) : Node := { n with children := n.children ++ more }

/-- The tree with a forest behind its nodes, below one of its groups. -/
def attach (t : Tree) (parent : Nat) (f : Forest) : Tree :=
  ⟨t.nodes.modify parent (addChildren · (f.tops t.size)) ++ (f.nodes parent t.size).toArray⟩

theorem toList_attach (t : Tree) (parent : Nat) (f : Forest) :
    (t.attach parent f).nodes.toList =
      t.nodes.toList.modify parent (addChildren · (f.tops t.size)) ++ f.nodes parent t.size := by
  simp [attach]

theorem ext_toList {s t : Tree} (h : s.nodes.toList = t.nodes.toList) : s = t := by
  obtain ⟨s⟩ := s
  obtain ⟨t⟩ := t
  exact congrArg Tree.mk (Array.toList_inj.1 h)

theorem length_toList (t : Tree) : t.nodes.toList.length = t.size := Array.length_toList

@[simp] theorem size_attach (t : Tree) (parent : Nat) (f : Forest) :
    (t.attach parent f).size = t.size + f.size := by
  rw [← length_toList, toList_attach, List.length_append, List.length_modify, length_toList,
    nodes_length]

/-! ## How an attached forest grows -/

@[simp] theorem attach_nil (t : Tree) (parent : Nat) : t.attach parent .nil = t := by
  refine ext_toList ?_
  have hid : (addChildren · ([] : List NodeId)) = (id : Node → Node) := by
    funext n
    rw [addChildren, List.append_nil]
    rfl
  rw [toList_attach, tops, Forest.nodes, hid, List.modify_id, List.append_nil]

/-- A second forest below the same group continues the first. -/
theorem attach_append (t : Tree) {parent : Nat} (hp : parent < t.size) (f g : Forest) :
    (t.attach parent f).attach parent g = t.attach parent (f ++ g) := by
  have hlt : parent < (t.nodes.toList.modify parent (addChildren · (f.tops t.size))).length := by
    rw [List.length_modify, length_toList]
    exact hp
  have htwice : (addChildren · (g.tops (t.size + f.size))) ∘ (addChildren · (f.tops t.size)) =
      (addChildren · ((f ++ g).tops t.size)) := by
    funext n
    rw [Function.comp, addChildren, addChildren, addChildren, tops_append, List.append_assoc]
  refine ext_toList ?_
  rw [toList_attach, toList_attach, toList_attach, size_attach, modify_append_left _ _ hlt,
    List.modify_modify_eq, htwice, nodes_append, List.append_assoc]

/-- A new group is an attached forest of one empty group. -/
theorem addChild_eq_attach (t : Tree) (parent : Nat) (c : Connective) :
    t.addChild parent c = t.attach parent (.cons c .empty .nil .nil) := by
  refine ext_toList ?_
  rw [toList_attach, addChild, Array.toList_push, Array.toList_modify]
  rfl

/-- A forest below the group that was attached last. -/
theorem attach_below (t : Tree) (parent : Nat) (c : Connective) (s : PredicateSet)
    (below : Forest) :
    (t.attach parent (.cons c s .nil .nil)).attach t.size below =
      t.attach parent (.cons c s below .nil) := by
  have hsize : t.size =
      (t.nodes.toList.modify parent (addChildren · [t.size])).length := by
    rw [List.length_modify, length_toList]
  refine ext_toList ?_
  rw [toList_attach, toList_attach, toList_attach, size_attach]
  simp only [tops, Forest.nodes, Forest.size, List.append_nil]
  conv =>
    lhs
    arg 1
    arg 2
    rw [hsize]
  rw [modify_length_append]
  simp [addChildren]

/-- More groups behind those below the group that was attached last. -/
theorem attach_within (t : Tree) {parent : Nat} (c : Connective) (s : PredicateSet)
    (below more : Forest) :
    (t.attach parent (.cons c s below .nil)).attach t.size more =
      t.attach parent (.cons c s (below ++ more) .nil) := by
  have hcopy : t.size < (t.attach parent (.cons c s .nil .nil)).size := by
    rw [size_attach, Forest.size]
    omega
  rw [← attach_below, attach_append _ hcopy, attach_below]

/-! ## The group that was attached last -/

theorem node_attach (t : Tree) (parent : Nat) (c : Connective) (s : PredicateSet)
    (below : Forest) :
    (t.attach parent (.cons c s below .nil)).node t.size =
      ⟨c, s, some parent, below.tops (t.size + 1)⟩ := by
  refine node_eq_of_get? ?_
  rw [get?, ← Array.getElem?_toList, toList_attach, List.getElem?_append_right (by simp [size]),
    List.length_modify, length_toList, Nat.sub_self]
  rfl

theorem modifyPredicates_attach (t : Tree) (parent : Nat) (c : Connective) (s : PredicateSet)
    (below : Forest) (f : PredicateSet → PredicateSet) :
    (t.attach parent (.cons c s below .nil)).modifyPredicates t.size f =
      t.attach parent (.cons c (f s) below .nil) := by
  have hsize : t.size =
      (t.nodes.toList.modify parent (addChildren · [t.size])).length := by
    rw [List.length_modify, length_toList]
  refine ext_toList ?_
  rw [modifyPredicates, Array.toList_modify, toList_attach, toList_attach]
  simp only [tops, Forest.nodes, List.append_nil]
  conv =>
    lhs
    arg 2
    rw [hsize]
  exact modify_length_append _ _ _ _

/-! ## The copy -/

/-- The copy of the outermost groups of a carried forest below one group. -/
theorem graftAll_tops {source : Tree} {f : Forest} {top first : Nat}
    (h : source.Carries top first f) (fuel : Nat) (stack : List (NodeId × NodeId)) (t : Tree)
    {parent : Nat} (hp : parent < t.size) :
    graftAll source (f.size + fuel) ((f.tops first).map (·, parent) ++ stack) t =
      graftAll source fuel stack (t.attach parent f) := by
  induction f generalizing top first parent fuel stack t with
  | nil => rw [Forest.size, Nat.zero_add, tops, List.map_nil, List.nil_append, attach_nil]
  | cons c s below after ihb iha =>
    obtain ⟨hnode, hbelow, hafter⟩ := h
    have hfuel : (Forest.cons c s below after).size + fuel =
        below.size + (after.size + fuel) + 1 := by
      rw [Forest.size]
      omega
    have hcopy : t.size < (t.attach parent (.cons c s .nil .nil)).size := by
      rw [size_attach, Forest.size]
      omega
    have hp' : parent < ((t.attach parent (.cons c s .nil .nil)).attach t.size below).size := by
      rw [size_attach, size_attach]
      omega
    rw [hfuel, tops, List.map_cons, List.cons_append, graftAll, node_eq_of_get? hnode]
    simp only
    rw [addChild_eq_attach, modifyPredicates_attach, ihb hbelow (after.size + fuel) _ _ hcopy,
      iha hafter fuel stack _ hp', attach_below, attach_append t hp]
    rfl

/-- The copy of one group with everything below it. -/
theorem graft_top {source : Tree} {below : Forest} {top id : Nat} {c : Connective}
    {s : PredicateSet} (h : source.Carries top id (.cons c s below .nil))
    (hsize : 1 + below.size ≤ source.size) (t : Tree) {parent : Nat} (hp : parent < t.size) :
    t.graft parent source id = t.attach parent (.cons c s below .nil) := by
  have hfuel : source.size =
      (Forest.cons c s below .nil).size + (source.size - (1 + below.size)) := by
    rw [Forest.size, Forest.size]
    omega
  have hrun := graftAll_tops h (source.size - (1 + below.size)) [] t hp
  rw [← hfuel] at hrun
  rw [graft]
  exact hrun.trans (by rw [graftAll])

/-- The copies of the outermost groups of a carried forest, one after the other. -/
theorem foldl_graft_tops {source : Tree} {f : Forest} {top first : Nat}
    (h : source.Carries top first f) (hsize : f.size ≤ source.size) (t : Tree) {parent : Nat}
    (hp : parent < t.size) :
    (f.tops first).foldl (fun t id => t.graft parent source id) t = t.attach parent f := by
  induction f generalizing first t with
  | nil => rw [tops, List.foldl_nil, attach_nil]
  | cons c s below after _ iha =>
    obtain ⟨hnode, hbelow, hafter⟩ := h
    rw [Forest.size] at hsize
    have htop : source.Carries top first (.cons c s below .nil) := ⟨hnode, hbelow, trivial⟩
    have hp' : parent < (t.attach parent (.cons c s below .nil)).size := by
      rw [size_attach]
      omega
    rw [tops, List.foldl_cons, graft_top htop (by omega) t hp, iha hafter (by omega) _ hp',
      attach_append t hp]
    rfl

/-! ## Two trees under one root -/

theorem attach_root_ofForest (s : PredicateSet) (f g : Forest) :
    (ofForest s f).attach root g = ofForest s (f ++ g) := by
  refine ext_toList ?_
  have hroot : 1 + f.size = f.size + 1 := Nat.add_comm 1 f.size
  rw [toList_attach, size_ofForest, root]
  simp only [ofForest, root, List.modify_zero_cons, addChildren, tops_append, nodes_append, hroot,
    List.cons_append]

theorem graftBelowRoot_ofForest (p s : PredicateSet) (f g : Forest) :
    (ofForest p f).graftBelowRoot (ofForest s g) = ofForest p (f ++ g) := by
  rw [graftBelowRoot, node_root_ofForest,
    foldl_graft_tops (carries_ofForest s g) (by rw [size_ofForest]; omega) _
      (by rw [size_ofForest, root]; omega),
    attach_root_ofForest]

/-- Two layouts under one root are the layout of both forests. -/
theorem join_ofForest (s₁ s₂ p : PredicateSet) (f g : Forest) :
    (ofForest s₁ f).join (ofForest s₂ g) p = ofForest p (f ++ g) := by
  have hnew : new.modifyPredicates root (fun _ => p) = ofForest p .nil := rfl
  rw [join, hnew, graftBelowRoot_ofForest, graftBelowRoot_ofForest, nil_append]

end Tree

end Worklist
