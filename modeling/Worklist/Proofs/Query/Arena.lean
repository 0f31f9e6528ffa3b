import Worklist.Proofs.Query.Layout
import Worklist.Proofs.Tree.Depth
import Worklist.Proofs.Tree.Fold
import Worklist.Proofs.Tree.Groups

/-!
# The order of groups in the array

In the array of a query the groups stand in pre-order: new groups are only opened below the last
group or one around it, and a merge copies groups in pre-order behind all others.

* `Forest.children_perm` says that the lists of children of a layout, taken together with its
  outermost groups, hold every position of the layout once.
* `Tree.InPreorder` collects what holds of the array, and `inPreorder_ofForest` proves it for
  layouts.
* `Tree.IsWithin` says that a group stands below another one.  `Carries.isWithin` finds everything
  that is carried below its parent, and `Shows.isWithin` the last group below the one that calls
  write to.
* `arena_in_preorder` is the result for reachable queries.
-/

namespace Worklist

/-! ## Lists of children -/

namespace Forest

/-- Every position of a forest is an outermost one or the child of one group, and only once. -/
theorem children_perm (parent first : Nat) (f : Forest) :
    (f.tops first ++ (f.nodes parent first).flatMap Node.children).Perm
      (List.range' first f.size) := by
  induction f generalizing parent first with
  | nil => exact List.Perm.refl []
  | cons c s below after ihb iha =>
    rw [tops, nodes, List.flatMap_cons, List.flatMap_append, range'_size_cons, List.cons_append]
    refine List.Perm.cons first ?_
    rw [← List.append_assoc (below.tops (first + 1))]
    -- the outermost groups behind the first one move behind everything below it
    exact (List.perm_append_comm_assoc _ _ _).trans
      ((ihb first (first + 1)).append (iha parent (first + 1 + below.size)))

/-- The outermost groups of a forest stand in order. -/
theorem tops_ascending (first : Nat) (f : Forest) : (f.tops first).Pairwise (· < ·) := by
  induction f generalizing first with
  | nil => exact List.Pairwise.nil
  | cons c s below after _ ih =>
    refine List.pairwise_cons.2 ⟨fun top htop => ?_, ih _⟩
    have hlo := (mem_tops htop).1
    exact Nat.lt_of_lt_of_le (by omega) hlo

end Forest

namespace Tree

open Forest

/-- The array of a tree is laid out in the order in which its groups are opened. -/
structure InPreorder (t : Tree) : Prop where
  /-- The first group is the root, which takes all conditions together. -/
  root : ∃ n, t.get? root = some n ∧ n.connective = .and ∧ n.parent = none
  /-- Every other group has a parent in front of it. -/
  parent : ∀ id < t.size, id ≠ Tree.root → ∃ above < id, (t.node id).parent = some above
  /-- Every other group is a child once. -/
  once : ∀ id < t.size, id ≠ Tree.root → (t.nodes.toList.flatMap Node.children).count id = 1
  /-- The children of a group are those groups whose parent it is. -/
  mem_children : ∀ id child : NodeId,
    child ∈ (t.node id).children ↔ (t.node child).parent = some id
  /-- Children stand in order. -/
  ascending : ∀ id : NodeId, (t.node id).children.Pairwise (· < ·)
  /-- The walk in pre-order takes the groups as they stand. -/
  preorder : t.preorder = List.range t.size

/-! ## Layouts -/

theorem flatMap_children_ofForest (s : PredicateSet) (f : Forest) :
    ((ofForest s f).nodes.toList.flatMap Node.children).Perm (List.range' 1 f.size) :=
  children_perm root 1 f

theorem children_ascending_ofForest (s : PredicateSet) (f : Forest) (id : Nat) :
    ((ofForest s f).node id).children.Pairwise (· < ·) := by
  rcases Nat.eq_zero_or_pos id with rfl | hpos
  · exact tops_ascending 1 f
  · rcases Nat.lt_or_ge id (ofForest s f).size with hid | hid
    · rw [size_ofForest] at hid
      obtain ⟨c, s', above, below, hat, -⟩ :=
        (carries_ofForest s f).node_spec hpos (by omega)
      rw [hat]
      exact tops_ascending (id + 1) below
    · rw [children_of_size_le hid]
      exact List.Pairwise.nil

/-- A group below the root is a child of some group, which can only be its parent. -/
theorem mem_children_of_parent (s : PredicateSet) (f : Forest) {id child : Nat}
    (hparent : ((ofForest s f).node child).parent = some id) :
    child ∈ ((ofForest s f).node id).children := by
  have hlt := lt_size_of_parent hparent
  have hne : child ≠ root := by
    rintro rfl
    cases hparent
  have hmem : child ∈ (ofForest s f).nodes.toList.flatMap Node.children :=
    (flatMap_children_ofForest s f).mem_iff.2 (mem_range'_ofForest.2 ⟨hne, hlt⟩)
  obtain ⟨n, hn, hchild⟩ := List.mem_flatMap.1 hmem
  obtain ⟨above, habove⟩ := List.mem_iff_getElem?.1 hn
  have hnode : (ofForest s f).node above = n := node_eq_of_get? (by simpa [get?] using habove)
  rw [← hnode] at hchild
  have hsame := parent_of_mem_children s f hchild
  rw [hparent, Option.some.injEq] at hsame
  rw [hsame]
  exact hchild

theorem inPreorder_ofForest (s : PredicateSet) (f : Forest) : (ofForest s f).InPreorder where
  root := ⟨_, rfl, rfl, rfl⟩
  parent id hid hne :=
    (carries_ofForest s f).parent_lt Nat.zero_lt_one id (mem_range'_ofForest.2 ⟨hne, hid⟩)
  once id hid hne := by
    rw [(flatMap_children_ofForest s f).count_eq, List.Nodup.count List.nodup_range',
      if_pos (mem_range'_ofForest.2 ⟨hne, hid⟩)]
  mem_children _ _ := ⟨parent_of_mem_children s f, mem_children_of_parent s f⟩
  ascending := children_ascending_ofForest s f
  preorder := by
    rw [preorder_ofForest, size_ofForest]

/-! ## Groups around a group -/

/-- A group is another one or stands below it. -/
inductive IsWithin (t : Tree) (above : NodeId) : NodeId → Prop where
  | itself : IsWithin t above above
  | inside {id parent : NodeId} (h : (t.node id).parent = some parent) :
      IsWithin t above parent → IsWithin t above id

theorem IsWithin.trans {t : Tree} {a b c : NodeId} (hab : t.IsWithin a b)
    (hbc : t.IsWithin b c) : t.IsWithin a c := by
  induction hbc with
  | itself => exact hab
  | inside hparent _ ih => exact .inside hparent ih

/-- Every group of a carried forest stands below the parent of the forest. -/
theorem Carries.isWithin {t : Tree} {f : Forest} {parent first : Nat}
    (h : t.Carries parent first f) :
    ∀ id ∈ List.range' first f.size, t.IsWithin parent id := by
  induction f generalizing parent first with
  | nil => exact List.forall_mem_nil _
  | cons c s below after ihb iha =>
    obtain ⟨hnode, hbelow, hafter⟩ := h
    have hfirst : t.IsWithin parent first := by
      refine .inside ?_ .itself
      rw [node_eq_of_get? hnode]
    rw [range'_size_cons, List.forall_mem_cons, List.forall_mem_append]
    exact ⟨hfirst, fun id hid => hfirst.trans (ihb hbelow id hid), iha hafter⟩

/-- A tree carries the forest that was attached to it last. -/
theorem carries_attach (t : Tree) (parent : Nat) (f : Forest) :
    (t.attach parent f).Carries parent t.size f := by
  have hlength :
      (t.nodes.toList.modify parent (addChildren · (f.tops t.size))).length = t.size := by
    rw [List.length_modify, length_toList]
  have hcarries := carries_of_toList (t := t.attach parent f) f parent
    (t.nodes.toList.modify parent (addChildren · (f.tops t.size))) []
    (by rw [hlength, toList_attach, List.append_nil])
  rw [hlength] at hcarries
  exact hcarries

end Tree

/-! ## Queries under construction -/

open Worklist.Tree OpenGroup

/-- What is closed below the innermost open group stands at the end of the array. -/
theorem OpenGroup.carries_tree (g : OpenGroup) (outer : List OpenGroup) :
    (g.tree outer).Carries (position outer) (position outer + 1) g.below ∧
      (g.tree outer).size = position outer + 1 + g.below.size := by
  cases outer with
  | nil =>
    refine ⟨carries_ofForest g.predicates g.below, ?_⟩
    rw [OpenGroup.tree, size_ofForest, closeAll, position, root]
    omega
  | cons o rest =>
    rw [tree_cons_eq_attach, position]
    refine ⟨(carries_attach _ _ g.closed).2.1, ?_⟩
    rw [size_attach, closed, Forest.size, Forest.size]
    omega

namespace Query

variable {q : Query}

/-- The last group of the array is the one that calls write to or stands below it. -/
theorem Shows.isWithin {g : OpenGroup} {outer : List OpenGroup} (h : q.Shows g outer) :
    q.tree.IsWithin q.current (q.tree.size - 1) := by
  obtain ⟨hcarries, hsize⟩ := g.carries_tree outer
  rw [h.tree, h.current, hsize]
  rcases Nat.eq_zero_or_pos g.below.size with hnone | hsome
  · rw [hnone]
    exact .itself
  · refine hcarries.isWithin _ ?_
    rw [List.mem_range'_1]
    omega

/-- In the array of a reachable query the groups stand in the order in which they were opened or
copied, which is their pre-order; and the group that calls write to is the last one or stands
around it. -/
theorem arena_in_preorder (h : q.Reachable) :
    q.tree.InPreorder ∧ q.tree.IsWithin q.current (q.tree.size - 1) := by
  obtain ⟨g, outer, hshows, -⟩ := h.layout (P := fun _ _ => True) (fun _ => trivial)
    (fun _ _ => trivial) (fun _ _ _ => trivial)
  refine ⟨?_, hshows.isWithin⟩
  rw [hshows.tree]
  exact inPreorder_ofForest _ _

/-- A merge of two queries with nested groups, which grows by two more groups of which one is
closed again. -/
theorem arena_in_preorder_built :
    ∃ q : Query, q.Reachable ∧ (q.tree.InPreorder ∧ q.tree.IsWithin q.current (q.tree.size - 1)) ∧
      q.current = 5 ∧ q.tree.preorder = [0, 1, 2, 3, 4, 5, 6] ∧
        q.tree.nodes.toList.map Node.children = [[1, 3, 5], [2], [], [4], [], [6], []] := by
  let nested := built [.openGroup .or, .openGroup .and, .closeGroup .and, .closeGroup .or]
  have hgrown : ((nested.extend nested).toOption.bind fun merged =>
      ([.openGroup .or, .openGroup .and, .closeGroup .and].foldlM Query.apply merged).toOption.map
        fun q => (q.current, q.tree.preorder, q.tree.nodes.toList.map Node.children)) =
          some (5, [0, 1, 2, 3, 4, 5, 6], [[1, 3, 5], [2], [], [4], [], [6], []]) := by
    decide +kernel
  obtain ⟨merged, hmerged, hgrown⟩ := Option.bind_eq_some_iff.1 hgrown
  obtain ⟨q, hq, hshape⟩ := Option.map_eq_some_iff.1 hgrown
  rw [toOption_eq_some] at hmerged hq
  obtain ⟨hcurrent, hshape⟩ := Prod.mk.inj hshape
  obtain ⟨hpreorder, hchildren⟩ := Prod.mk.inj hshape
  have hnested : nested.Reachable := reachable_built _
  have hreachable : q.Reachable := (Reachable.extend hnested hnested hmerged).foldlM hq
  exact ⟨q, hreachable, arena_in_preorder hreachable, hcurrent, hpreorder, hchildren⟩

end Query

end Worklist
