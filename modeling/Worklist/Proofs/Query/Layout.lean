import Worklist.Proofs.Query.Step
import Worklist.Proofs.Tree.Graft

/-!
# The layout of a query under construction

While a query is built, some groups are open, each within the next, and every
other group is closed.  A group that is opened is the last child of the group
that calls write to, and its node is the last of the array, so the tree is at
every moment the layout of the forest in which the open groups are closed.

* `OpenGroup` is a group with the closed groups below it, and
  `OpenGroup.tree` the tree of a group that is open within others.
* `attach_tree`, `modifyPredicates_tree` and `node_tree_cons` read and change
  the innermost open group.
* `Query.Shows` is the invariant, with one lemma for each step.
* `Reachable.layout` is the induction over a whole history of calls and
  merges: a property of groups that holds of empty groups and survives steps
  and merges holds of all groups of a reachable query.
-/

namespace Worklist

open Worklist.Tree

/-- A group that is not closed yet, with the closed groups below it. -/
structure OpenGroup where
  connective : Connective
  predicates : PredicateSet
  below : Forest

namespace OpenGroup

/-- A group that has just been opened. -/
def blank (c : Connective) : OpenGroup := ⟨c, .empty, .nil⟩

/-- The group as a closed one. -/
def closed (g : OpenGroup) : Forest := .cons g.connective g.predicates g.below .nil

/-- A group with another one closed below it. -/
def adopt (outer inner : OpenGroup) : OpenGroup :=
  { outer with below := outer.below ++ inner.closed }

/-- The outermost group when a group and the groups around it, the innermost first, are closed. -/
def closeAll (g : OpenGroup) : List OpenGroup → OpenGroup
  | [] => g
  | outer :: rest => (outer.adopt g).closeAll rest

/-- The tree in which a group is open within others. -/
def tree (g : OpenGroup) (outer : List OpenGroup) : Tree :=
  .ofForest (g.closeAll outer).predicates (g.closeAll outer).below

/-- The position of a group that is open within others. -/
def position : List OpenGroup → Nat
  | [] => root
  | outer :: rest => (outer.tree rest).size

theorem tree_cons (g outer : OpenGroup) (rest : List OpenGroup) :
    g.tree (outer :: rest) = (outer.adopt g).tree rest := rfl

/-- The outermost group has the same connective, whatever is closed inside it. -/
theorem connective_closeAll {g h : OpenGroup} (heq : g.connective = h.connective)
    (outer : List OpenGroup) : (g.closeAll outer).connective = (h.closeAll outer).connective := by
  induction outer generalizing g h with
  | nil => exact heq
  | cons o rest ih => exact ih rfl

/-! ## The innermost open group -/

/-- A forest below the innermost open group stands behind the groups that are closed there. -/
theorem attach_tree (g : OpenGroup) (outer : List OpenGroup) (f : Forest) :
    (g.tree outer).attach (position outer) f = ({ g with below := g.below ++ f }).tree outer := by
  induction outer generalizing g f with
  | nil => exact attach_root_ofForest g.predicates g.below f
  | cons o rest ih =>
    rw [tree_cons, tree_cons, adopt, ← ih o, position, closed, attach_within, adopt, ← ih o,
      closed]

/-- A group that is open within others is the last one below the group around it. -/
theorem tree_cons_eq_attach (g outer : OpenGroup) (rest : List OpenGroup) :
    g.tree (outer :: rest) = (outer.tree rest).attach (position rest) g.closed := by
  rw [attach_tree]
  rfl

theorem modifyPredicates_tree (g : OpenGroup) (outer : List OpenGroup)
    (f : PredicateSet → PredicateSet) :
    (g.tree outer).modifyPredicates (position outer) f =
      ({ g with predicates := f g.predicates }).tree outer := by
  cases outer with
  | nil => rfl
  | cons o rest =>
    rw [tree_cons_eq_attach, tree_cons_eq_attach, position, closed, modifyPredicates_attach]
    rfl

theorem node_tree_cons (g outer : OpenGroup) (rest : List OpenGroup) :
    (g.tree (outer :: rest)).node (position (outer :: rest)) =
      ⟨g.connective, g.predicates, some (position rest),
        g.below.tops (position (outer :: rest) + 1)⟩ := by
  rw [tree_cons_eq_attach, position, closed, node_attach]

/-! ## Properties of all groups -/

/-- A group and all groups below it have a property. -/
def All (P : Connective → PredicateSet → Prop) (g : OpenGroup) : Prop :=
  P g.connective g.predicates ∧ g.below.All P

theorem all_adopt {P : Connective → PredicateSet → Prop} {outer inner : OpenGroup}
    (ho : outer.All P) (hi : inner.All P) : (outer.adopt inner).All P :=
  ⟨ho.1, Forest.all_append.2 ⟨ho.2, hi.1, hi.2, trivial⟩⟩

theorem all_closeAll {P : Connective → PredicateSet → Prop} {g : OpenGroup}
    {outer : List OpenGroup} (h : ∀ o ∈ g :: outer, o.All P) : (g.closeAll outer).All P := by
  induction outer generalizing g with
  | nil => exact h g (List.mem_singleton_self g)
  | cons o rest ih =>
    rw [List.forall_mem_cons, List.forall_mem_cons] at h
    obtain ⟨hg, ho, hrest⟩ := h
    refine ih ?_
    rw [List.forall_mem_cons]
    exact ⟨all_adopt ho hg, hrest⟩

end OpenGroup

/-! ## Steps -/

open OpenGroup

namespace Query

variable {q r : Query} {g : OpenGroup} {outer : List OpenGroup}

/-- A query writes to group `g`, which is open within the groups of `outer`. -/
structure Shows (q : Query) (g : OpenGroup) (outer : List OpenGroup) : Prop where
  tree : q.tree = g.tree outer
  current : q.current = position outer
  root : (g.closeAll outer).connective = .and

theorem Shows.new : Query.new.Shows (blank .and) [] := ⟨rfl, rfl, rfl⟩

theorem Shows.predicates (h : q.Shows g outer) : q.predicates = g.predicates := by
  rw [Query.predicates, group, h.tree, h.current]
  cases outer with
  | nil => rfl
  | cons o rest => rw [node_tree_cons]

theorem Shows.connective (h : q.Shows g outer) : q.group.connective = g.connective := by
  rw [group, h.tree, h.current]
  cases outer with
  | nil => exact h.root.symm
  | cons o rest => rw [node_tree_cons]

theorem Shows.isAtRoot (h : q.Shows g outer) : q.isAtRoot = outer.isEmpty := by
  rw [Query.isAtRoot, h.current]
  cases outer with
  | nil => rfl
  | cons o rest =>
    have hne : position (o :: rest) ≠ Tree.root := by
      rw [position, OpenGroup.tree, size_ofForest, Tree.root]
      omega
    simpa using hne

theorem Shows.openGroup (h : q.Shows g outer) (c : Connective) :
    (q.openGroup c).Shows (blank c) (g :: outer) := by
  refine ⟨?_, ?_, ?_⟩
  · rw [Query.openGroup, h.tree, h.current, addChild_eq_attach, attach_tree]
    rfl
  · rw [Query.openGroup, h.tree]
    rfl
  · rw [← h.root, closeAll]
    refine connective_closeAll ?_ outer
    rfl

/-- Only a group within another one has a parent, and closing it adds it to that group. -/
theorem Shows.closeGroup (h : q.Shows g outer) {parent : Nat} (hp : q.group.parent = some parent) :
    ∃ o rest, outer = o :: rest ∧ ({ q with current := parent }).Shows (o.adopt g) rest := by
  rw [group, h.tree, h.current] at hp
  cases outer with
  | nil => cases hp
  | cons o rest =>
    rw [node_tree_cons] at hp
    cases hp
    exact ⟨o, rest, rfl, h.tree, rfl, h.root⟩

theorem Shows.modify (h : q.Shows g outer) (f : PredicateSet → PredicateSet) :
    (q.modify f).Shows { g with predicates := f g.predicates } outer := by
  refine ⟨?_, h.current, ?_⟩
  · rw [Query.modify, h.tree, h.current, modifyPredicates_tree]
  · rw [← h.root]
    refine connective_closeAll ?_ outer
    rfl

theorem Shows.sortKeys (h : q.Shows g outer) (keys : List SortKey) :
    ({ q with sortKeys := keys }).Shows g outer := ⟨h.tree, h.current, h.root⟩

/-- A step keeps a property of all groups that empty groups have and changed groups keep. -/
theorem Shows.step {P : Connective → PredicateSet → Prop} (empty : ∀ c, P c .empty)
    (change : ∀ {c s s'}, PredicateSet.Step c s s' → P c s → P c s') (h : q.Shows g outer)
    (hall : ∀ o ∈ g :: outer, o.All P) (hr : q.Step r) :
    ∃ g' outer', r.Shows g' outer' ∧ ∀ o ∈ g' :: outer', o.All P := by
  have hg := hall g List.mem_cons_self
  cases hr with
  | opened c =>
    refine ⟨blank c, g :: outer, h.openGroup c, ?_⟩
    rw [List.forall_mem_cons]
    exact ⟨⟨empty c, trivial⟩, hall⟩
  | closed hp =>
    obtain ⟨o, rest, rfl, hshows⟩ := h.closeGroup hp
    rw [List.forall_mem_cons, List.forall_mem_cons] at hall
    refine ⟨o.adopt g, rest, hshows, ?_⟩
    rw [List.forall_mem_cons]
    exact ⟨all_adopt hall.2.1 hg, hall.2.2⟩
  | changed f hstep =>
    rw [h.connective, h.predicates] at hstep
    refine ⟨_, outer, h.modify f, ?_⟩
    rw [List.forall_mem_cons] at hall ⊢
    exact ⟨⟨change hstep hg.1, hg.2⟩, hall.2⟩
  | sorted p => exact ⟨g, outer, h.sortKeys _, hall⟩
  | directed d => exact ⟨g, outer, h.sortKeys _, hall⟩

/-! ## Histories -/

/-- The tree of a query at its root, group by group. -/
theorem Shows.tree_of_isAtRoot (h : q.Shows g outer) (hq : q.isAtRoot = true) :
    outer = [] ∧ g.connective = .and ∧ q.tree = .ofForest g.predicates g.below := by
  rw [h.isAtRoot, List.isEmpty_iff] at hq
  subst hq
  exact ⟨rfl, h.root, h.tree⟩

/-- What empty groups have, changes keep and merged root groups inherit, all groups of a reachable
query have. -/
theorem Reachable.layout {P : Connective → PredicateSet → Prop} (empty : ∀ c, P c .empty)
    (change : ∀ {c s s'}, PredicateSet.Step c s s' → P c s → P c s')
    (merge : ∀ {base ext s}, PredicateSet.merge base ext = .ok s → P .and base → P .and ext →
      P .and s) (h : q.Reachable) :
    ∃ g outer, q.Shows g outer ∧ ∀ o ∈ g :: outer, o.All P := by
  induction h with
  | new =>
    refine ⟨blank .and, [], Shows.new, ?_⟩
    rw [List.forall_mem_singleton]
    exact ⟨empty .and, trivial⟩
  | apply e _ hr ih =>
    obtain ⟨g, outer, hshows, hall⟩ := ih
    exact hshows.step empty change hall (step_of_apply hr)
  | extend _ _ hr ihb ihe =>
    obtain ⟨g₁, outer₁, hshows₁, hall₁⟩ := ihb
    obtain ⟨g₂, outer₂, hshows₂, hall₂⟩ := ihe
    obtain ⟨hroot₁, hroot₂, s, hs, rfl⟩ := extend_eq_ok.1 hr
    obtain ⟨rfl, hand₁, htree₁⟩ := hshows₁.tree_of_isAtRoot hroot₁
    obtain ⟨rfl, hand₂, htree₂⟩ := hshows₂.tree_of_isAtRoot hroot₂
    have hg₁ := hall₁ g₁ List.mem_cons_self
    have hg₂ := hall₂ g₂ List.mem_cons_self
    rw [htree₁, htree₂] at hs ⊢
    refine ⟨⟨.and, s, g₁.below ++ g₂.below⟩, [], ⟨join_ofForest _ _ _ _ _, rfl, rfl⟩, ?_⟩
    rw [List.forall_mem_singleton]
    exact ⟨merge hs (hand₁ ▸ hg₁.1) (hand₂ ▸ hg₂.1),
      Forest.all_append.2 ⟨hg₁.2, hg₂.2⟩⟩

/-- The tree of a reachable query is the layout of a forest. -/
theorem Reachable.tree_eq {P : Connective → PredicateSet → Prop} (empty : ∀ c, P c .empty)
    (change : ∀ {c s s'}, PredicateSet.Step c s s' → P c s → P c s')
    (merge : ∀ {base ext s}, PredicateSet.merge base ext = .ok s → P .and base → P .and ext →
      P .and s) (h : q.Reachable) :
    ∃ s f, q.tree = .ofForest s f ∧ f.All P ∧ P .and s := by
  obtain ⟨g, outer, hshows, hall⟩ := h.layout empty change merge
  obtain ⟨hroot, hbelow⟩ := all_closeAll hall
  exact ⟨_, _, hshows.tree, hbelow, hshows.root ▸ hroot⟩

end Query

end Worklist
