import Worklist.Proofs.Tree.Forest

/-!
# Depths

The depth of a group is the number of parents above it.  The walk along the parents is bounded by
the number of nodes, which it never reaches in a tree whose parents stand in front of their
children; there `depth_of_parent` and `depth_of_root` are the plain recursion equations.

`Carries.parent_lt` and `parentsFirst_ofForest` say that the layout of a forest is such a tree, and
`depth_of_child` counts the depths of a layout downwards.
-/

namespace Worklist.Tree

/-- Every parent stands in front of its children. -/
def ParentsFirst (t : Tree) : Prop :=
  ∀ id parent : Nat, (t.node id).parent = some parent → parent < id

/-! ## The recursion equations -/

/-- One more step changes nothing, as soon as there are as many steps as positions in front. -/
theorem depthWithin_succ {t : Tree} (ht : t.ParentsFirst) (fuel id : Nat) (h : id ≤ fuel) :
    t.depthWithin (fuel + 1) id = t.depthWithin fuel id := by
  induction fuel generalizing id with
  | zero =>
    cases hparent : (t.node id).parent with
    | none => simp only [depthWithin, hparent]
    | some parent =>
      have hlt := ht id parent hparent
      omega
  | succ fuel ih =>
    cases hparent : (t.node id).parent with
    | none => simp only [depthWithin, hparent]
    | some parent =>
      have hlt := ht id parent hparent
      rw [depthWithin, depthWithin, hparent]
      simp only
      rw [ih parent (by omega)]

/-- Only positions within the array have a parent. -/
theorem lt_size_of_parent {t : Tree} {id parent : Nat} (h : (t.node id).parent = some parent) :
    id < t.size := by
  rcases Nat.lt_or_ge id t.size with hid | hid
  · exact hid
  · have hnone : t.nodes[id]? = none := Array.getElem?_eq_none_iff.2 hid
    rw [node, hnone] at h
    cases h

theorem depth_of_parent {t : Tree} (ht : t.ParentsFirst) {id parent : Nat}
    (h : (t.node id).parent = some parent) : t.depth id = t.depth parent + 1 := by
  have hid := lt_size_of_parent h
  have hlt := ht id parent h
  obtain ⟨n, hn⟩ : ∃ n, t.size = n + 1 := ⟨t.size - 1, by omega⟩
  rw [depth, depth, hn, depthWithin_succ ht n parent (by omega), depthWithin, h]

theorem depth_of_root {t : Tree} {id : Nat} (h : (t.node id).parent = none) : t.depth id = 0 := by
  rw [depth]
  cases t.size with
  | zero => rfl
  | succ n => rw [depthWithin, h]

/-! ## Layouts -/

/-- Every group of a carried forest has a parent, which stands in front of it. -/
theorem Carries.parent_lt {t : Tree} {f : Forest} {parent first : Nat}
    (h : t.Carries parent first f) (hp : parent < first) :
    ∀ id ∈ List.range' first f.size, ∃ above < id, (t.node id).parent = some above := by
  induction f generalizing parent first with
  | nil => simp [Forest.size]
  | cons c s below after ihb iha =>
    obtain ⟨hnode, hbelow, hafter⟩ := h
    rw [Forest.range'_size_cons, List.forall_mem_cons, List.forall_mem_append,
      node_eq_of_get? hnode]
    exact ⟨⟨parent, hp, rfl⟩, ihb hbelow (by omega), iha hafter (by omega)⟩

theorem parentsFirst_ofForest (s : PredicateSet) (f : Forest) : (ofForest s f).ParentsFirst := by
  intro id parent hparent
  have hid := lt_size_of_parent hparent
  rw [size_ofForest] at hid
  rcases Nat.eq_zero_or_pos id with rfl | hpos
  · cases hparent
  · have hmem : id ∈ List.range' 1 f.size := by
      rw [List.mem_range'_1]
      omega
    obtain ⟨above, hlt, habove⟩ := (carries_ofForest s f).parent_lt Nat.zero_lt_one id hmem
    rw [habove] at hparent
    cases hparent
    exact hlt

/-- The outermost groups of a carried forest have its parent, and every other group is a child of
its parent. -/
theorem Carries.parent_of_child {t : Tree} {f : Forest} {parent first : Nat}
    (h : t.Carries parent first f) :
    (∀ top ∈ f.tops first, (t.node top).parent = some parent) ∧
      ∀ id ∈ List.range' first f.size, ∀ child ∈ (t.node id).children,
        (t.node child).parent = some id := by
  induction f generalizing parent first with
  | nil => simp [Forest.tops, Forest.size]
  | cons c s below after ihb iha =>
    obtain ⟨hnode, hbelow, hafter⟩ := h
    obtain ⟨htops, hdeeper⟩ := ihb hbelow
    obtain ⟨hnext, hlater⟩ := iha hafter
    rw [Forest.tops, Forest.range'_size_cons, List.forall_mem_cons, List.forall_mem_cons,
      List.forall_mem_append, node_eq_of_get? hnode]
    exact ⟨⟨rfl, hnext⟩, htops, hdeeper, hlater⟩

/-- A child of a layout has the group as its parent. -/
theorem parent_of_mem_children (s : PredicateSet) (f : Forest) {id child : Nat}
    (hchild : child ∈ ((ofForest s f).node id).children) :
    ((ofForest s f).node child).parent = some id := by
  obtain ⟨htops, hdeeper⟩ := (carries_ofForest s f).parent_of_child
  rcases Nat.eq_zero_or_pos id with rfl | hpos
  · exact htops child hchild
  · rcases Nat.lt_or_ge id (ofForest s f).size with hid | hid
    · refine hdeeper id ?_ child hchild
      rw [size_ofForest] at hid
      rw [List.mem_range'_1]
      omega
    · have hnone : (ofForest s f).nodes[id]? = none := Array.getElem?_eq_none_iff.2 hid
      rw [node, hnone] at hchild
      cases hchild

/-- A child is one level below its parent. -/
theorem depth_of_child (s : PredicateSet) (f : Forest) {id child : Nat}
    (hchild : child ∈ ((ofForest s f).node id).children) :
    (ofForest s f).depth child = (ofForest s f).depth id + 1 :=
  depth_of_parent (parentsFirst_ofForest s f) (parent_of_mem_children s f hchild)

end Worklist.Tree
