import Worklist.Criteria
import Worklist.Proofs.Predicate.Sound
import Worklist.Proofs.Tree.Fold
import Worklist.Proofs.Tree.Plan

/-!
# What compiled queries are

A reachable query that compiles has closed all its groups, and none of them is
empty.  `Criteria.Lays` collects what proofs about compiled queries start
from: the forest that the tree is the layout of, its closing plan, and the
soundness of every group.  `Reachable.lays` gives it for every reachable
query, and `Lays.sound_node` and `Lays.full_node` read it at a position.
-/

namespace Worklist

/-- Compiling succeeds if the checks do and the plan can be made. -/
theorem Query.compile_eq_ok {q : Query} {identity : IdentityResolver} {config : Config}
    {c : Criteria} (h : q.compile identity config = .ok c) :
    Check.runAll q Check.standard = .ok () ∧ q.tree.closingPlan = .ok c.slots ∧
      c.tree = q.tree ∧ c.likeEscape = config.likeEscape := by
  obtain ⟨⟨⟩, hchecks, h⟩ := bind_eq_ok.1 h
  obtain ⟨slots, hslots, h⟩ := bind_eq_ok.1 h
  cases h
  exact ⟨hchecks, hslots, rfl, rfl⟩

namespace Criteria

/-- A compiled query is the layout of a forest of sound groups, none of them empty. -/
structure Lays (c : Criteria) (s : PredicateSet) (f : Forest) : Prop where
  tree : c.tree = .ofForest s f
  full : f.isFull = true
  slots : c.slots = f.plan 1
  sound : f.All PredicateSet.Sound
  root : PredicateSet.Sound .and s

variable {c : Criteria} {s : PredicateSet} {f : Forest}

theorem Lays.ascending (h : c.Lays s f) : c.tree.Ascending :=
  h.tree ▸ Tree.ascending_ofForest s f

theorem Lays.size (h : c.Lays s f) : c.tree.size = f.size + 1 := by
  rw [h.tree, Tree.size_ofForest]

theorem Lays.carries (h : c.Lays s f) : c.tree.Carries Tree.root 1 f :=
  h.tree ▸ Tree.carries_ofForest s f

theorem Lays.node_root (h : c.Lays s f) : c.tree.node Tree.root = ⟨.and, s, none, f.tops 1⟩ := by
  rw [h.tree, Tree.node_root_ofForest]

theorem Lays.preorder (h : c.Lays s f) : c.tree.preorder = List.range c.tree.size := by
  rw [h.size, h.tree, Tree.preorder_ofForest]

/-- Every position holds a sound group. -/
theorem Lays.sound_node (h : c.Lays s f) (id : Nat) :
    PredicateSet.Sound (c.tree.node id).connective (c.tree.node id).predicates := by
  rcases Nat.eq_zero_or_pos id with rfl | hpos
  · have hroot := h.node_root
    rw [Tree.root] at hroot
    rw [hroot]
    exact h.root
  · rcases Nat.lt_or_ge id (1 + f.size) with hid | hid
    · obtain ⟨_, _, _, _, hat, -, hP, -⟩ := h.carries.node_spec hpos hid
      rw [hat]
      exact hP _ h.sound
    · have hnone : c.tree.nodes[id]? = none := by
        rw [Array.getElem?_eq_none_iff, ← Tree.size, h.size]
        omega
      rw [Tree.node, hnone]
      exact PredicateSet.Sound.empty .and

/-- Every group that is a child of another one has filters or children. -/
theorem Lays.full_node (h : c.Lays s f) {id child : Nat} (hc : child ∈ (c.tree.node id).children) :
    (c.tree.node child).children.isEmpty = false ∨
      (c.tree.node child).predicates.isEmpty = false := by
  obtain ⟨hlt, hsize⟩ := h.ascending id child hc
  rw [h.size] at hsize
  obtain ⟨_, _, _, _, hat, -, -, hfull⟩ := h.carries.node_spec
    (show 1 ≤ child by omega) (show child < 1 + f.size by omega)
  rw [hat]
  exact hfull h.full

end Criteria

/-- A reachable query that compiles is the layout of a forest. -/
theorem Query.Reachable.lays {q : Query} (hq : q.Reachable) {identity : IdentityResolver}
    {config : Config} {c : Criteria} (hc : q.compile identity config = .ok c) :
    ∃ s f, c.Lays s f := by
  obtain ⟨s, f, htree, hsound, hroot⟩ := hq.sound
  obtain ⟨-, hplan, hct, -⟩ := compile_eq_ok hc
  rw [htree, Tree.closingPlan_ofForest] at hplan
  split at hplan
  · rename_i hfull
    exact ⟨s, f, hct.trans htree, hfull, (Except.ok.inj hplan).symm, hsound, hroot⟩
  · cases hplan

end Worklist
