import Worklist.Closing
import Worklist.Proofs.Outcome
import Worklist.Proofs.Tree.Forest

/-!
# Walks that stay in the array

The walks over a tree take a position outside the array for an empty group.  A tree that is read
from elsewhere can have such positions, or no root.  Here the walks are made once more with lookups
that fail outside the array, to tell for which trees no walk ever leaves it.

* `ClosingPlan.checkedRun`, `Tree.checkedPlan` and `Tree.checkedDepth` are the walks, with `none`
  for a step out of the array.  `run_of_checkedRun`, `closingPlan_of_checkedPlan` and
  `depthWithin_of_checkedDepth` say that a walk that stays inside is the walk of the tree.
* `Tree.Reaches` holds of the positions that the planner can come to.  `checkedRun_outcome` says
  how its run can end, and `Explored` is the invariant for the other direction: what is left to do
  leads to all positions that are not marked.  `pendingSteps` bounds the steps.
* `exists_checkedPlan_iff` and `checkedDepth_ne_none_iff` are the results, with
  `HoldsItsGroups.checkedPlan_eq` and `exists_closingPlan_iff` for trees that lead nowhere else.
-/

namespace Worklist

variable {t : Tree}

/-- A group without children and without filters. -/
def Node.IsEmpty (n : Node) : Prop := n.children = [] ∧ n.predicates.isEmpty = true

theorem Node.isEmpty_iff {n : Node} :
    (n.isLeaf && n.predicates.isEmpty) = true ↔ n.IsEmpty := by
  rw [Node.isLeaf, Bool.and_eq_true, List.isEmpty_iff, Node.IsEmpty]

/-! ## Walks with lookups that can fail -/

namespace ClosingPlan

/-- The run of the planner, with no result if it looks outside the array. -/
def checkedRun (t : Tree) :
    Nat → List Step → Array Bool → List Slot → Option (Except QueryError (List Slot))
  | _, [], _, slots => some (.ok slots)
  | 0, _ :: _, _, slots => some (.ok slots)
  | fuel + 1, .leave :: stack, visited, slots => checkedRun t fuel stack visited (bumpLast slots)
  | fuel + 1, .enter id :: stack, visited, slots => do
    if ← visited[id]? then checkedRun t fuel stack visited slots
    else
      let node ← t.get? id
      if node.isLeaf && node.predicates.isEmpty then return .error .emptyGroup
      else
        let stack := node.children.map .enter ++ .leave :: stack
        checkedRun t fuel stack (visited.setIfInBounds id true) (⟨id, .none⟩ :: slots)

end ClosingPlan

namespace Tree

open ClosingPlan

/-- The closing plan, with no result if the planner looks outside the array. -/
def checkedPlan (t : Tree) : Option (Except QueryError (List Slot)) := do
  let top ← t.get? root
  let plan ← checkedRun t (fuelFor t) (top.children.map .enter) (Array.replicate t.size false) []
  return plan.map List.reverse

/-- The number of parents above a group in a number of steps, with no result if a step leads
outside the array. -/
def checkedDepth (t : Tree) : Nat → NodeId → Option Nat
  | 0, _ => some 0
  | steps + 1, id => do
    match (← t.get? id).parent with
    | some parent => return (← t.checkedDepth steps parent) + 1
    | none => return 0

/-- Positions that the planner can come to from the root. -/
inductive Reaches (t : Tree) : NodeId → Prop where
  | top {id : NodeId} (h : id ∈ (t.node root).children) : Reaches t id
  | next {id child : NodeId} (h : Reaches t id) (hc : child ∈ (t.node id).children) :
      Reaches t child

/-- A tree that has a root and in which parents and children are groups of the tree. -/
structure HoldsItsGroups (t : Tree) : Prop where
  root : Tree.root < t.size
  parent : ∀ n ∈ t.nodes.toList, ∀ id ∈ n.parent, id < t.size
  children : ∀ n ∈ t.nodes.toList, ∀ id ∈ n.children, id < t.size

theorem lt_size_of_get? {id : NodeId} {n : Node} (h : t.get? id = some n) : id < t.size :=
  (Array.getElem?_eq_some_iff.1 h).1

theorem get?_of_lt {id : NodeId} (h : id < t.size) : t.get? id = some (t.node id) := by
  have hget : t.nodes[id]? = some t.nodes[id] := Array.getElem?_eq_getElem h
  rw [get?, node, hget, Option.getD_some]

theorem get?_eq_none_iff {id : NodeId} : t.get? id = none ↔ t.size ≤ id :=
  Array.getElem?_eq_none_iff

theorem mem_of_get? {id : NodeId} {n : Node} (h : t.get? id = some n) : n ∈ t.nodes.toList :=
  List.mem_of_getElem? (Array.getElem?_toList.trans h)

end Tree

/-! ## Walks that stay inside -/

namespace ClosingPlan

variable {fuel : Nat} {stack : List Step} {visited : Array Bool} {slots : List Slot}

theorem run_of_checkedRun {result : Except QueryError (List Slot)}
    (h : checkedRun t fuel stack visited slots = some result) :
    run t fuel stack visited slots = result := by
  induction fuel generalizing stack visited slots with
  | zero => cases stack <;> exact Option.some.inj h
  | succ fuel ih =>
    match stack with
    | [] => exact Option.some.inj h
    | .leave :: stack => exact ih h
    | .enter id :: stack =>
      obtain ⟨seen, hseen, h⟩ := Option.bind_eq_some_iff.1 h
      rw [run, hseen, Option.getD_some]
      split at h
      · rename_i hmarked
        rw [if_pos hmarked]
        exact ih h
      · rename_i hmarked
        obtain ⟨n, hn, h⟩ := Option.bind_eq_some_iff.1 h
        rw [if_neg hmarked, Tree.node_eq_of_get? hn]
        simp only
        split at h
        · rename_i hempty
          rw [if_pos hempty]
          exact Option.some.inj h
        · rename_i hempty
          rw [if_neg hempty]
          exact ih h

/-! ## How a run can end -/

/-- A run from reachable positions leaves the array only at a reachable position, and fails only at
an empty group that is reachable. -/
theorem checkedRun_outcome (hsize : visited.size = t.size)
    (hstack : ∀ id, Step.enter id ∈ stack → t.Reaches id) :
    (checkedRun t fuel stack visited slots = none → ∃ id, t.Reaches id ∧ t.get? id = none) ∧
      ∀ e, checkedRun t fuel stack visited slots = some (.error e) →
        ∃ id n, t.Reaches id ∧ t.get? id = some n ∧ n.IsEmpty := by
  induction fuel generalizing stack visited slots with
  | zero => cases stack <;> exact ⟨nofun, nofun⟩
  | succ fuel ih =>
    match stack, hstack with
    | [], _ => exact ⟨nofun, nofun⟩
    | .leave :: stack, hstack =>
      exact ih hsize fun id hid => hstack id (List.mem_cons_of_mem _ hid)
    | .enter id :: stack, hstack =>
      have hid : t.Reaches id := hstack id List.mem_cons_self
      have hrest : ∀ next, Step.enter next ∈ stack → t.Reaches next := fun next hnext =>
        hstack next (List.mem_cons_of_mem _ hnext)
      rw [checkedRun]
      cases hget : t.get? id with
      | none =>
        have hout : visited[id]? = none :=
          Array.getElem?_eq_none_iff.2 (hsize ▸ Tree.get?_eq_none_iff.1 hget)
        rw [hout]
        exact ⟨fun _ => ⟨id, hid, hget⟩, nofun⟩
      | some n =>
        obtain ⟨seen, hseen⟩ : ∃ seen, visited[id]? = some seen :=
          ⟨_, Array.getElem?_eq_getElem (hsize ▸ Tree.lt_size_of_get? hget)⟩
        rw [hseen, some_bind, some_bind]
        split
        · exact ih hsize hrest
        · split
          · rename_i hempty
            exact ⟨nofun, fun _ _ => ⟨id, n, hid, hget, Node.isEmpty_iff.1 hempty⟩⟩
          · refine ih (by rw [Array.size_setIfInBounds, hsize]) fun next hnext => ?_
            rcases List.mem_append.1 hnext with hnext | hnext
            · obtain ⟨child, hchild, heq⟩ := List.mem_map.1 hnext
              cases heq
              exact .next hid (Tree.node_eq_of_get? hget ▸ hchild)
            · refine hrest next ((List.mem_cons.1 hnext).resolve_left ?_)
              exact Step.noConfusion

/-! ## What a run that ends well has seen -/

/-- A position is marked. -/
def IsMarked (visited : Array Bool) (id : NodeId) : Prop := visited[id]? = some true

/-- Marking one position leaves the other marks as they are. -/
theorem isMarked_setIfInBounds {id : NodeId} (hid : id < visited.size) (other : NodeId) :
    IsMarked (visited.setIfInBounds id true) other ↔ other = id ∨ IsMarked visited other := by
  rw [IsMarked, IsMarked, Array.getElem?_setIfInBounds]
  by_cases heq : id = other
  · subst heq
    simp [hid]
  · rw [if_neg heq, or_iff_right (Ne.symm heq)]

/-- Whatever can be reached is marked or still to be entered, and marked positions hold groups that
are not empty. -/
structure Explored (t : Tree) (stack : List Step) (visited : Array Bool) : Prop where
  top : ∀ id ∈ (t.node Tree.root).children, IsMarked visited id ∨ .enter id ∈ stack
  next : ∀ id, IsMarked visited id → ∀ child ∈ (t.node id).children,
    IsMarked visited child ∨ .enter child ∈ stack
  holds : ∀ id, IsMarked visited id → ∃ n, t.get? id = some n ∧ ¬n.IsEmpty

/-- When nothing is left to do, everything that can be reached has been seen. -/
theorem Explored.marked (h : Explored t [] visited) {id : NodeId} (hid : t.Reaches id) :
    IsMarked visited id := by
  induction hid with
  | top hid => exact (h.top _ hid).resolve_right List.not_mem_nil
  | next _ hchild ih => exact (h.next _ ih _ hchild).resolve_right List.not_mem_nil

/-- A step that leaves nothing behind but marked positions can be dropped. -/
theorem Explored.tail {step : Step} (h : Explored t (step :: stack) visited)
    (hstep : ∀ id, step = .enter id → IsMarked visited id) : Explored t stack visited := by
  have hrest : ∀ id, IsMarked visited id ∨ .enter id ∈ step :: stack →
      IsMarked visited id ∨ .enter id ∈ stack := by
    rintro id (hid | hid)
    · exact .inl hid
    · rcases List.mem_cons.1 hid with heq | hid
      · exact .inl (hstep id heq.symm)
      · exact .inr hid
  exact ⟨fun id hid => hrest id (h.top id hid),
    fun id hid child hchild => hrest child (h.next id hid child hchild), h.holds⟩

/-- Entering a group marks it and leaves its children to be entered. -/
theorem Explored.enter {id : NodeId} {n : Node} (h : Explored t (.enter id :: stack) visited)
    (hsize : visited.size = t.size) (hget : t.get? id = some n) (hn : ¬n.IsEmpty) :
    Explored t (n.children.map .enter ++ .leave :: stack) (visited.setIfInBounds id true) := by
  have hlt : id < visited.size := hsize ▸ Tree.lt_size_of_get? hget
  have hmarked := isMarked_setIfInBounds hlt
  have hrest : ∀ other, IsMarked visited other ∨ .enter other ∈ Step.enter id :: stack →
      IsMarked (visited.setIfInBounds id true) other ∨
        Step.enter other ∈ n.children.map .enter ++ .leave :: stack := by
    rintro other (hother | hother)
    · exact .inl ((hmarked other).2 (.inr hother))
    · rcases List.mem_cons.1 hother with heq | hother
      · cases heq
        exact .inl ((hmarked id).2 (.inl rfl))
      · exact .inr (List.mem_append_right _ (List.mem_cons_of_mem _ hother))
  refine ⟨fun other hother => hrest other (h.top other hother), ?_, ?_⟩
  · intro other hother child hchild
    rcases (hmarked other).1 hother with rfl | hother
    · rw [Tree.node_eq_of_get? hget] at hchild
      exact .inr (List.mem_append_left _ (List.mem_map_of_mem hchild))
    · exact hrest child (h.next other hother child hchild)
  · intro other hother
    rcases (hmarked other).1 hother with rfl | hother
    · exact ⟨n, hget, hn⟩
    · exact h.holds other hother

/-! ## The number of steps -/

/-- The steps that groups can still put on the stack, each with the step that leaves it. -/
def pendingSteps : List Node → List Bool → Nat
  | n :: nodes, seen :: visited =>
    (if seen then 0 else n.children.length + 1) + pendingSteps nodes visited
  | _, _ => 0

/-- A group that is marked puts no more steps on the stack. -/
theorem pendingSteps_set {nodes : List Node} {visited : List Bool} {id : Nat} {n : Node}
    (hn : nodes[id]? = some n) (hid : visited[id]? = some false) :
    pendingSteps nodes (visited.set id true) + (n.children.length + 1) =
      pendingSteps nodes visited := by
  induction nodes generalizing visited id with
  | nil => simp at hn
  | cons m nodes ih =>
    cases visited with
    | nil => simp at hid
    | cons seen visited =>
      cases id with
      | zero =>
        cases hn
        cases hid
        simp [pendingSteps]
        omega
      | succ id =>
        have hid : visited[id]? = some false := hid
        have hnext := ih hn hid
        rw [List.set_cons_succ, pendingSteps, pendingSteps]
        omega

/-- The fuel of the planner covers all steps. -/
theorem pendingSteps_replicate (nodes : List Node) (base : Nat) :
    base + pendingSteps nodes (List.replicate nodes.length false) =
      nodes.foldr (fun n steps => n.children.length + 1 + steps) base := by
  induction nodes with
  | nil => rfl
  | cons n nodes ih =>
    rw [List.length_cons, List.replicate_succ, pendingSteps, List.foldr_cons, ← ih, if_neg nofun]
    omega

/-- A run that ends well with fuel for all its steps has entered everything that can be reached,
and found groups there that are not empty. -/
theorem get?_of_checkedRun {plan : List Slot} (hsize : visited.size = t.size)
    (hfuel : stack.length + pendingSteps t.nodes.toList visited.toList ≤ fuel)
    (hexplored : Explored t stack visited)
    (h : checkedRun t fuel stack visited slots = some (.ok plan)) {id : NodeId}
    (hid : t.Reaches id) : ∃ n, t.get? id = some n ∧ ¬n.IsEmpty := by
  induction fuel generalizing stack visited slots with
  | zero =>
    obtain rfl : stack = [] := List.length_eq_zero_iff.1 (by omega)
    exact hexplored.holds id (hexplored.marked hid)
  | succ fuel ih =>
    match stack with
    | [] => exact hexplored.holds id (hexplored.marked hid)
    | .leave :: stack =>
      rw [List.length_cons] at hfuel
      exact ih hsize (by omega) (hexplored.tail nofun) h
    | .enter id' :: stack =>
      rw [List.length_cons] at hfuel
      obtain ⟨seen, hseen, h⟩ := Option.bind_eq_some_iff.1 h
      split at h
      · rename_i hmarked
        refine ih hsize (by omega) (hexplored.tail fun _ heq => ?_) h
        cases heq
        rw [IsMarked, hseen, hmarked]
      · rename_i hmarked
        obtain ⟨n, hn, h⟩ := Option.bind_eq_some_iff.1 h
        split at h
        · cases h
        · rename_i hempty
          have hunseen : visited.toList[id']? = some false := by
            rw [Array.getElem?_toList, hseen, Bool.eq_false_iff.2 hmarked]
          have hpending := pendingSteps_set (Array.getElem?_toList.trans hn) hunseen
          refine ih (by rw [Array.size_setIfInBounds, hsize]) ?_
            (hexplored.enter hsize hn fun hn => hempty (Node.isEmpty_iff.2 hn)) h
          rw [Array.toList_setIfInBounds, List.length_append, List.length_map, List.length_cons]
          omega

end ClosingPlan

namespace Tree

open ClosingPlan

/-! ## Plans -/

theorem closingPlan_of_checkedPlan {result : Except QueryError (List Slot)}
    (h : t.checkedPlan = some result) : t.closingPlan = result := by
  obtain ⟨top, htop, h⟩ := Option.bind_eq_some_iff.1 h
  obtain ⟨plan, hplan, h⟩ := Option.bind_eq_some_iff.1 h
  cases h
  rw [closingPlan, node_eq_of_get? htop, run_of_checkedRun hplan]

/-- How the planner ends: it leaves the array only if there is no root or a reachable position that
is no group, and it fails only at a reachable group that is empty. -/
theorem checkedPlan_outcome :
    (t.checkedPlan = none → t.size = 0 ∨ ∃ id, t.Reaches id ∧ t.get? id = none) ∧
      ∀ e, t.checkedPlan = some (.error e) →
        ∃ id n, t.Reaches id ∧ t.get? id = some n ∧ n.IsEmpty := by
  rw [checkedPlan]
  cases htop : t.get? root with
  | none => exact ⟨fun _ => .inl (Nat.le_zero.1 (get?_eq_none_iff.1 htop)), nofun⟩
  | some top =>
    have hstack : ∀ id, Step.enter id ∈ top.children.map .enter → t.Reaches id := by
      intro id hid
      obtain ⟨child, hchild, heq⟩ := List.mem_map.1 hid
      cases heq
      exact .top (node_eq_of_get? htop ▸ hchild)
    obtain ⟨hnone, herror⟩ := @checkedRun_outcome t (fuelFor t) _
      (Array.replicate t.size false) [] Array.size_replicate hstack
    rw [some_bind]
    cases hrun : checkedRun t (fuelFor t) (top.children.map .enter)
        (Array.replicate t.size false) [] with
    | none => exact ⟨fun _ => .inr (hnone hrun), nofun⟩
    | some result =>
      refine ⟨nofun, fun e he => ?_⟩
      cases result with
      | error e' => exact herror e' hrun
      | ok plan => cases he

/-- The planner makes a plan without leaving the array exactly if the tree has a root and all
positions that can be reached from it are groups which are not empty. -/
theorem exists_checkedPlan_iff :
    (∃ slots, t.checkedPlan = some (.ok slots)) ↔
      root < t.size ∧ ∀ id, t.Reaches id → ∃ n, t.get? id = some n ∧ ¬n.IsEmpty := by
  constructor
  · rintro ⟨slots, h⟩
    obtain ⟨top, htop, h⟩ := Option.bind_eq_some_iff.1 h
    obtain ⟨plan, hplan, h⟩ := Option.bind_eq_some_iff.1 h
    refine ⟨lt_size_of_get? htop, fun id hid => ?_⟩
    cases plan with
    | error e => cases h
    | ok plan =>
      have hnone : ∀ id, ¬IsMarked (Array.replicate t.size false) id := by
        intro id hid
        rw [IsMarked, Array.getElem?_replicate] at hid
        split at hid <;> cases hid
      refine get?_of_checkedRun Array.size_replicate ?_ ⟨?_, ?_, ?_⟩ hplan hid
      · rw [Array.toList_replicate, fuelFor, node_eq_of_get? htop, List.length_map,
          ← pendingSteps_replicate, Array.length_toList]
        exact Nat.le_refl _
      · intro id hid
        rw [node_eq_of_get? htop] at hid
        exact .inr (List.mem_map_of_mem hid)
      · exact fun id hid => absurd hid (hnone id)
      · exact fun id hid => absurd hid (hnone id)
  · rintro ⟨hroot, hgroups⟩
    obtain ⟨hnone, herror⟩ := checkedPlan_outcome (t := t)
    cases hplan : t.checkedPlan with
    | none =>
      rcases hnone hplan with hsize | ⟨id, hid, hget⟩
      · exact absurd (hsize ▸ hroot) (Nat.not_lt_zero _)
      · obtain ⟨n, hn, -⟩ := hgroups id hid
        rw [hget] at hn
        cases hn
    | some result =>
      cases result with
      | ok slots => exact ⟨slots, rfl⟩
      | error e =>
        obtain ⟨id, n, hid, hget, hempty⟩ := herror e hplan
        obtain ⟨m, hm, hfull⟩ := hgroups id hid
        rw [hget, Option.some.injEq] at hm
        exact absurd (hm ▸ hempty) hfull

/-- If all children are groups of the tree, so is everything that can be reached. -/
theorem Reaches.lt_size (hchildren : ∀ n ∈ t.nodes.toList, ∀ id ∈ n.children, id < t.size)
    {id : NodeId} (h : t.Reaches id) : id < t.size := by
  have hchild : ∀ id child, child ∈ (t.node id).children → child < t.size := by
    intro id child hchild
    cases hget : t.get? id with
    | some n =>
      rw [node_eq_of_get? hget] at hchild
      exact hchildren n (mem_of_get? hget) child hchild
    | none =>
      rw [get?] at hget
      rw [node, hget] at hchild
      cases hchild
  cases h with
  | top hid => exact hchild _ id hid
  | next _ hid => exact hchild _ id hid

/-- In a tree with a root, and whose children are groups of it, the planner never leaves the
array. -/
theorem checkedPlan_eq (hroot : root < t.size)
    (hchildren : ∀ n ∈ t.nodes.toList, ∀ id ∈ n.children, id < t.size) :
    t.checkedPlan = some t.closingPlan := by
  cases hplan : t.checkedPlan with
  | some result => rw [closingPlan_of_checkedPlan hplan]
  | none =>
    rcases checkedPlan_outcome.1 hplan with hsize | ⟨id, hid, hget⟩
    · exact absurd (hsize ▸ hroot) (Nat.not_lt_zero _)
    · exact absurd (hid.lt_size hchildren) (Nat.not_lt.2 (get?_eq_none_iff.1 hget))

theorem HoldsItsGroups.checkedPlan_eq (h : t.HoldsItsGroups) :
    t.checkedPlan = some t.closingPlan :=
  Tree.checkedPlan_eq h.root h.children

/-- There is a plan exactly if nothing that can be reached is an empty group. -/
theorem exists_closingPlan_iff (hroot : root < t.size)
    (hchildren : ∀ n ∈ t.nodes.toList, ∀ id ∈ n.children, id < t.size) :
    (∃ slots, t.closingPlan = .ok slots) ↔ ¬∃ id, t.Reaches id ∧ (t.node id).IsEmpty := by
  have hplan := exists_checkedPlan_iff (t := t)
  simp only [checkedPlan_eq hroot hchildren, Option.some.injEq] at hplan
  rw [hplan, and_iff_right hroot, not_exists]
  refine forall_congr' fun id => ?_
  rw [not_and]
  refine imp_congr_right fun hid => ?_
  simp [get?_of_lt (hid.lt_size hchildren)]

/-! ## Depths -/

theorem depthWithin_of_checkedDepth {steps : Nat} {id : NodeId} {depth : Nat}
    (h : t.checkedDepth steps id = some depth) : t.depthWithin steps id = depth := by
  induction steps generalizing id depth with
  | zero => exact Option.some.inj h
  | succ steps ih =>
    obtain ⟨n, hn, h⟩ := Option.bind_eq_some_iff.1 h
    rw [depthWithin, node_eq_of_get? hn]
    cases hparent : n.parent with
    | none =>
      rw [hparent] at h
      exact Option.some.inj h
    | some parent =>
      rw [hparent] at h
      obtain ⟨above, habove, h⟩ := Option.bind_eq_some_iff.1 h
      cases h
      simp only [ih habove]

/-- No walk along the parents leaves the array, however long it is, exactly if all parents are
groups of the tree. -/
theorem checkedDepth_ne_none_iff :
    (∀ id n, t.get? id = some n → ∀ steps, t.checkedDepth steps id ≠ none) ↔
      ∀ n ∈ t.nodes.toList, ∀ id ∈ n.parent, id < t.size := by
  constructor
  · intro h n hn id hid
    obtain ⟨child, hchild⟩ := List.mem_iff_getElem?.1 hn
    have hget : t.get? child = some n := Array.getElem?_toList.symm.trans hchild
    rw [← Nat.not_le]
    intro hout
    refine h child n hget 2 ?_
    rw [checkedDepth, hget, some_bind, Option.mem_def.1 hid]
    simp only
    rw [checkedDepth, get?_eq_none_iff.2 hout]
    rfl
  · intro h id n hget steps
    induction steps generalizing id n with
    | zero => exact nofun
    | succ steps ih =>
      rw [checkedDepth, hget, some_bind]
      cases hparent : n.parent with
      | none => exact nofun
      | some parent =>
        have hlt := h n (mem_of_get? hget) parent hparent
        obtain ⟨above, habove⟩ := Option.ne_none_iff_exists'.1 (ih parent _ (get?_of_lt hlt))
        simp only [habove]
        exact nofun

end Tree

end Worklist
