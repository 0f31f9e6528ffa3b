import Mathlib.Logic.Relation
import Worklist.Proofs.Tree.Brackets
import Worklist.Proofs.Tree.Search

/-!
# The turns of the planner

The planner is a loop over a stack of steps, and its trees need not be trees: children can be shared,
repeated, or lead back to a group or to the root.  Here the loop is a relation between states, turn
by turn and without fuel, to say that it ends on every tree and what it has planned then.

* `Turn` is one turn of the loop, and `Ends` says how it can end.  Every turn uses up one of the steps
  that are pending (`Turn.pending`), so there is no endless run (`wellFounded_turn`), and the result
  of the loop is the closing plan (`Turn.outcome`).
* `Valid` is the invariant, and `Turn.valid` the step that keeps it.  What is left on the stack leads
  on to the depth-first search from the root, and brackets are open for the groups that have not been
  left.
* `closingPlan_total` is the result for trees with a root whose children are groups of the tree.
-/

namespace Worklist

open Relation

namespace ClosingPlan

variable {t : Tree}

/-- Where the loop stands: the steps that are left, the marks, and the plan so far, backwards. -/
structure State where
  stack : List Step
  visited : Array Bool
  slots : List Slot

/-- One turn of the loop. -/
inductive Turn (t : Tree) : State → State → Prop where
  | leave {stack : List Step} {visited : Array Bool} {slots : List Slot} :
      Turn t ⟨.leave :: stack, visited, slots⟩ ⟨stack, visited, bumpLast slots⟩
  | skip {id : NodeId} {stack : List Step} {visited : Array Bool} {slots : List Slot}
      (hid : IsMarked visited id) :
      Turn t ⟨.enter id :: stack, visited, slots⟩ ⟨stack, visited, slots⟩
  | enter {id : NodeId} {n : Node} {stack : List Step} {visited : Array Bool} {slots : List Slot}
      (hid : visited[id]? = some false) (hn : t.get? id = some n) (hfull : ¬n.IsEmpty) :
      Turn t ⟨.enter id :: stack, visited, slots⟩
        ⟨n.children.map .enter ++ .leave :: stack, visited.setIfInBounds id true,
          ⟨id, .none⟩ :: slots⟩

/-- How the loop ends: when no step is left, or at a group that is empty. -/
inductive Ends (t : Tree) : State → Except QueryError (List Slot) → Prop where
  | done {visited : Array Bool} {slots : List Slot} :
      Ends t ⟨[], visited, slots⟩ (.ok slots.reverse)
  | empty {id : NodeId} {n : Node} {stack : List Step} {visited : Array Bool} {slots : List Slot}
      (hid : visited[id]? = some false) (hn : t.get? id = some n) (hempty : n.IsEmpty) :
      Ends t ⟨.enter id :: stack, visited, slots⟩ (.error .emptyGroup)

namespace State

/-- The state before the first turn. -/
def start (t : Tree) : State :=
  ⟨(t.node Tree.root).children.map .enter, Array.replicate t.size false, []⟩

/-- The steps on the stack and those that groups can still put there. -/
def pending (t : Tree) (s : State) : Nat :=
  s.stack.length + pendingSteps t.nodes.toList s.visited.toList

/-- What the planner makes of a state with as much fuel as there are steps. -/
def outcome (t : Tree) (s : State) : Except QueryError (List Slot) :=
  (run t (s.pending t) s.stack s.visited s.slots).map List.reverse

/-- The groups in the plan so far, the latest first. -/
def groups (s : State) : List NodeId := s.slots.map Slot.group

end State

/-- The group that a step enters. -/
def Step.entered? : Step → Option NodeId
  | enter id => some id
  | leave => none

/-! ## No endless run -/

variable {s s' : State}

/-- Every turn uses up one step. -/
theorem Turn.pending (h : Turn t s s') : s'.pending t + 1 = s.pending t := by
  cases h with
  | leave =>
    simp only [State.pending, List.length_cons]
    omega
  | skip =>
    simp only [State.pending, List.length_cons]
    omega
  | enter hid hn =>
    have hset := pendingSteps_set (Array.getElem?_toList.trans hn)
      (Array.getElem?_toList.trans hid)
    simp only [State.pending, List.length_append, List.length_map, List.length_cons,
      Array.toList_setIfInBounds]
    omega

theorem wellFounded_turn (t : Tree) : WellFounded fun after before => Turn t before after :=
  Subrelation.wf (fun h => Nat.lt_of_succ_le (Nat.le_of_eq h.pending)) (measure (State.pending t)).wf

/-- A turn changes nothing in what comes out at the end. -/
theorem Turn.outcome (h : Turn t s s') : s.outcome t = s'.outcome t := by
  rw [State.outcome, ← h.pending, State.outcome]
  cases h with
  | leave => rw [run]
  | skip hid =>
    rw [run, hid]
    rfl
  | enter hid hn hfull =>
    rw [run_enter (Tree.node_eq_of_get? hn) (by rw [hid]; rfl)]
    exact congrArg _ (if_neg fun h => hfull (Node.isEmpty_iff.1 h))

/-- What comes out where the loop ends. -/
theorem Ends.outcome {result : Except QueryError (List Slot)} (h : Ends t s result) :
    s.outcome t = result := by
  cases h with
  | done =>
    rw [State.outcome]
    cases State.pending t _ <;> rfl
  | @empty id _ stack visited slots hid hn hempty =>
    have hpending : State.pending t ⟨.enter id :: stack, visited, slots⟩ =
        stack.length + pendingSteps t.nodes.toList visited.toList + 1 := Nat.add_right_comm _ _ _
    rw [State.outcome, hpending,
      run_enter (Tree.node_eq_of_get? hn) (by rw [hid]; rfl)]
    exact congrArg _ (if_pos (Node.isEmpty_iff.2 hempty))

theorem outcome_start (t : Tree) : (State.start t).outcome t = t.closingPlan := by
  have hpending : (State.start t).pending t = fuelFor t := by
    rw [State.pending, State.start, List.length_map, Array.toList_replicate, ← Tree.length_toList,
      pendingSteps_replicate, fuelFor]
  rw [State.outcome, hpending]
  rfl

/-! ## The invariant -/

/-- What holds of every state of the loop. -/
structure Valid (t : Tree) (s : State) : Prop where
  size : s.visited.size = t.size
  /-- The marked groups are those of the plan. -/
  marked : ∀ id, IsMarked s.visited id ↔ id ∈ s.groups
  /-- Only groups that the root leads to are entered. -/
  reached : ∀ id, .enter id ∈ s.stack → t.Reaches id
  /-- The plan so far and a search over what is left make a search from the root. -/
  leads : ∀ order, t.FirstVisits s.groups (s.stack.filterMap Step.entered?) order →
    t.FirstVisits [] (t.node Tree.root).children (s.groups.reverse ++ order)
  /-- The groups that have not been left are those whose brackets are open. -/
  balance : closed s.slots + s.stack.count .leave = s.slots.length
  /-- No more brackets close behind the first groups than there are groups. -/
  covered : ∀ earlier, earlier <:+ s.slots → closed earlier ≤ earlier.length

theorem closed_bumpLast {slots : List Slot} (h : slots ≠ []) :
    closed (bumpLast slots) = closed slots + 1 := by
  cases slots with
  | nil => exact absurd rfl h
  | cons slot slots => exact Nat.add_right_comm _ _ _

theorem closed_reverse (slots : List Slot) : closed slots.reverse = closed slots := by
  induction slots with
  | nil => rfl
  | cons slot slots ih =>
    rw [List.reverse_cons, closed_append, ih]
    exact Nat.add_comm _ _

theorem entered_children (children : List NodeId) (stack : List Step) :
    (children.map Step.enter ++ .leave :: stack).filterMap Step.entered? =
      children ++ stack.filterMap Step.entered? := by
  have hchildren : (children.map Step.enter).filterMap Step.entered? = children := by
    rw [List.filterMap_map]
    exact List.filterMap_some
  rw [List.filterMap_append, hchildren]
  rfl

theorem count_leave_children (children : List NodeId) (stack : List Step) :
    (children.map Step.enter ++ .leave :: stack).count .leave = stack.count .leave + 1 := by
  have hnone : (children.map Step.enter).count .leave = 0 := by
    simp [List.count_eq_zero]
  rw [List.count_append, hnone, Nat.zero_add, List.count_cons_self]

theorem valid_start (t : Tree) : Valid t (.start t) where
  size := Array.size_replicate
  marked id := by
    rw [State.start, IsMarked, Array.getElem?_replicate]
    split <;> simp [State.groups]
  reached id hid := by
    obtain ⟨child, hchild, heq⟩ := List.mem_map.1 hid
    cases heq
    exact .top hchild
  leads order h := by
    rwa [State.start, List.filterMap_map, show Step.entered? ∘ Step.enter = some from rfl,
      List.filterMap_some] at h
  balance := by
    rw [State.start]
    simp [closed, List.count_eq_zero]
  covered earlier h := by
    rw [List.suffix_nil.1 h]
    exact Nat.le_refl _

theorem Valid.leave {stack : List Step} {visited : Array Bool} {slots : List Slot}
    (h : Valid t ⟨.leave :: stack, visited, slots⟩) : Valid t ⟨stack, visited, bumpLast slots⟩ := by
  have hgroups : (bumpLast slots).map Slot.group = slots.map Slot.group :=
    Forest.map_group_bumpLast slots
  have hbalance : closed slots + (stack.count .leave + 1) = slots.length := by
    rw [← List.count_cons_self]
    exact h.balance
  have hne : slots ≠ [] := by
    rintro rfl
    simp at hbalance
  have hclosed := closed_bumpLast hne
  have hlength : (bumpLast slots).length = slots.length := by
    rw [← List.length_map (f := Slot.group), hgroups, List.length_map]
  refine ⟨h.size, ?_, fun id hid => h.reached id (List.mem_cons_of_mem _ hid), ?_, ?_, ?_⟩
  · rw [State.groups, hgroups]
    exact h.marked
  · rw [State.groups, hgroups]
    exact h.leads
  · show closed (bumpLast slots) + stack.count .leave = (bumpLast slots).length
    omega
  · intro earlier hearlier
    cases slots with
    | nil => exact absurd rfl hne
    | cons slot slots =>
      -- what ends before the latest slot is as it was
      rcases List.suffix_cons_iff.1 hearlier with rfl | hearlier
      · show closed (bumpLast (slot :: slots)) ≤ (bumpLast (slot :: slots)).length
        omega
      · exact h.covered earlier (hearlier.trans (List.suffix_cons slot slots))

theorem Valid.skip {id : NodeId} {stack : List Step} {visited : Array Bool} {slots : List Slot}
    (h : Valid t ⟨.enter id :: stack, visited, slots⟩) (hid : IsMarked visited id) :
    Valid t ⟨stack, visited, slots⟩ where
  size := h.size
  marked := h.marked
  reached next hnext := h.reached next (List.mem_cons_of_mem _ hnext)
  leads order horder := h.leads order (.again ((h.marked id).1 hid) horder)
  balance := by
    have hleave : (Step.enter id :: stack).count .leave = stack.count .leave :=
      List.count_cons_of_ne Step.noConfusion
    exact hleave ▸ h.balance
  covered := h.covered

theorem Valid.enter {id : NodeId} {n : Node} {stack : List Step} {visited : Array Bool}
    {slots : List Slot} (h : Valid t ⟨.enter id :: stack, visited, slots⟩)
    (hid : visited[id]? = some false) (hn : t.get? id = some n) :
    Valid t ⟨n.children.map .enter ++ .leave :: stack, visited.setIfInBounds id true,
      ⟨id, .none⟩ :: slots⟩ := by
  have hnode : t.node id = n := Tree.node_eq_of_get? hn
  have hlt : id < visited.size := (Array.getElem?_eq_some_iff.1 hid).1
  have hnew : id ∉ slots.map Slot.group := fun hmem => by
    rw [(h.marked id).2 hmem] at hid
    cases hid
  have hbalance : closed slots + stack.count .leave = slots.length := by
    have hleave : (Step.enter id :: stack).count .leave = stack.count .leave :=
      List.count_cons_of_ne Step.noConfusion
    exact hleave ▸ h.balance
  have hopened : closed (⟨id, .none⟩ :: slots) = closed slots := Nat.zero_add _
  refine ⟨?_, ?_, ?_, ?_, ?_, ?_⟩
  · exact Array.size_setIfInBounds.trans h.size
  · intro other
    show IsMarked (visited.setIfInBounds id true) other ↔ other ∈ id :: slots.map Slot.group
    rw [isMarked_setIfInBounds hlt, List.mem_cons]
    exact or_congr_right (h.marked other)
  · intro next hnext
    rcases List.mem_append.1 hnext with hnext | hnext
    · obtain ⟨child, hchild, heq⟩ := List.mem_map.1 hnext
      cases heq
      exact .next (h.reached id List.mem_cons_self) (hnode ▸ hchild)
    · refine h.reached next (List.mem_cons_of_mem _ ((List.mem_cons.1 hnext).resolve_left ?_))
      exact Step.noConfusion
  · intro order horder
    rw [entered_children, ← hnode] at horder
    show t.FirstVisits [] _ ((id :: slots.map Slot.group).reverse ++ order)
    rw [List.reverse_cons, List.append_assoc]
    exact h.leads (id :: order) (.enter hnew horder)
  · show closed (⟨id, .none⟩ :: slots) + (n.children.map Step.enter ++ .leave :: stack).count .leave =
      slots.length + 1
    rw [hopened, count_leave_children]
    omega
  · intro earlier hearlier
    rcases List.suffix_cons_iff.1 hearlier with rfl | hearlier
    · rw [hopened, List.length_cons]
      omega
    · exact h.covered earlier hearlier

/-- The step: a turn keeps the invariant. -/
theorem Turn.valid (h : Turn t s s') (hs : Valid t s) : Valid t s' := by
  cases h with
  | leave => exact hs.leave
  | skip hid => exact hs.skip hid
  | enter hid hn => exact hs.enter hid hn

/-! ## Runs -/

/-- A run from the start keeps the invariant and does not change what comes out at the end. -/
theorem valid_of_run (h : ReflTransGen (Turn t) (.start t) s) :
    Valid t s ∧ s.outcome t = t.closingPlan := by
  induction h with
  | refl => exact ⟨valid_start t, outcome_start t⟩
  | tail _ hturn ih => exact ⟨hturn.valid ih.1, hturn.outcome.symm.trans ih.2⟩

/-- A state of the loop is not stuck: no step leads out of the array. -/
theorem Valid.progress (h : Valid t s)
    (hchildren : ∀ n ∈ t.nodes.toList, ∀ id ∈ n.children, id < t.size) :
    (∃ next, Turn t s next) ∨ Ends t s (s.outcome t) := by
  suffices hsome : (∃ next, Turn t s next) ∨ ∃ result, Ends t s result from
    hsome.imp_right fun ⟨_, hends⟩ => hends.outcome ▸ hends
  obtain ⟨stack, visited, slots⟩ := s
  match stack, h with
  | [], _ => exact .inr ⟨_, .done⟩
  | .leave :: stack, _ => exact .inl ⟨_, .leave⟩
  | .enter id :: stack, h =>
    have hlt : id < t.size := (h.reached id List.mem_cons_self).lt_size hchildren
    have hn : t.get? id = some (t.node id) := Tree.get?_of_lt hlt
    obtain ⟨seen, hseen⟩ : ∃ seen, visited[id]? = some seen :=
      ⟨_, Array.getElem?_eq_getElem (h.size ▸ hlt)⟩
    cases seen with
    | true => exact .inl ⟨_, .skip hseen⟩
    | false =>
      by_cases hempty : (t.node id).IsEmpty
      · exact .inr ⟨_, .empty hseen hn hempty⟩
      · exact .inl ⟨_, .enter hseen hn hempty⟩

/-- Every state that the loop comes to goes on or ends with the closing plan. -/
theorem progress_of_run (hchildren : ∀ n ∈ t.nodes.toList, ∀ id ∈ n.children, id < t.size)
    (h : ReflTransGen (Turn t) (.start t) s) :
    (∃ next, Turn t s next) ∨ Ends t s t.closingPlan := by
  obtain ⟨hvalid, houtcome⟩ := valid_of_run h
  exact houtcome ▸ hvalid.progress hchildren

/-- The loop comes to an end. -/
theorem exists_ends (hchildren : ∀ n ∈ t.nodes.toList, ∀ id ∈ n.children, id < t.size) :
    ∃ last, Valid t last ∧ Ends t last t.closingPlan := by
  suffices h : ∀ s, ReflTransGen (Turn t) (.start t) s →
      ∃ last, Valid t last ∧ Ends t last t.closingPlan from h _ .refl
  intro s
  induction s using (wellFounded_turn t).induction with
  | _ s ih =>
    intro hrun
    rcases progress_of_run hchildren hrun with ⟨next, hturn⟩ | hends
    · exact ih next hturn (hrun.tail hturn)
    · exact ⟨s, (valid_of_run hrun).1, hends⟩

end ClosingPlan

/-! ## The plan -/

namespace Tree

open ClosingPlan

variable {t : Tree}

/-- What a closing plan says of a tree, whatever its children are. -/
structure IsPlan (t : Tree) (slots : List Slot) : Prop where
  /-- The groups stand in the order of the depth-first search. -/
  search : ∀ order, t.FirstVisits [] (t.node root).children order ↔ order = slots.map Slot.group
  /-- No group stands there twice. -/
  once : (slots.map Slot.group).Nodup
  /-- The groups are those that can be reached from the children of the root. -/
  groups : ∀ id, id ∈ slots.map Slot.group ↔ t.Reaches id
  /-- As many brackets close as there are groups. -/
  total : closed slots = slots.length
  /-- No bracket closes before it was opened. -/
  opened : ∀ i, closed (slots.take i) ≤ i

/-- What the loop has planned when no step is left. -/
theorem isPlan_of_valid {visited : Array Bool} {slots : List Slot}
    (h : Valid t ⟨[], visited, slots⟩) : t.IsPlan slots.reverse := by
  have hsearch : t.FirstVisits [] (t.node root).children (slots.reverse.map Slot.group) := by
    rw [List.map_reverse, ← List.append_nil (List.reverse _)]
    exact h.leads [] .done
  refine ⟨fun order => ⟨fun horder => horder.unique hsearch, fun heq => heq ▸ hsearch⟩,
    hsearch.nodup.1, fun id => hsearch.mem_iff, ?_, fun i => ?_⟩
  · rw [closed_reverse, List.length_reverse]
    exact h.balance
  · have hcovered := h.covered _ (List.drop_suffix (slots.length - i) slots)
    rw [List.length_drop] at hcovered
    rw [List.take_reverse, closed_reverse]
    omega

/-- The closing plan of any tree with a root whose children are groups of the tree.  Groups may
share children, have one twice, or lead back to themselves or to the root.

* The loop of the planner has no endless run, and from every state that it comes to it goes on or
  ends with the closing plan.
* There is no plan exactly if some group that can be reached from the children of the root has
  neither children nor a filter.
* Otherwise the plan lists the groups that can be reached, once and in the order of a depth-first
  search from left to right.  As many brackets close as there are groups, and behind the first groups
  never more than there are of them. -/
theorem closingPlan_total (hroot : root < t.size)
    (hchildren : ∀ n ∈ t.nodes.toList, ∀ id ∈ n.children, id < t.size) :
    ((WellFounded fun after before => Turn t before after) ∧
      ∀ s, ReflTransGen (Turn t) (.start t) s →
        (∃ next, Turn t s next) ∨ Ends t s t.closingPlan) ∧
    (t.closingPlan = .error .emptyGroup ↔ ∃ id, t.Reaches id ∧ (t.node id).IsEmpty) ∧
    ((¬∃ id, t.Reaches id ∧ (t.node id).IsEmpty) →
      ∃ slots, t.closingPlan = .ok slots ∧ t.IsPlan slots) := by
  have hplan := exists_closingPlan_iff hroot hchildren
  obtain ⟨last, hvalid, hends⟩ := exists_ends hchildren
  refine ⟨⟨wellFounded_turn t, fun s => progress_of_run hchildren⟩, ?_⟩
  generalize t.closingPlan = result at hplan hends
  cases hends with
  | done =>
    have hfull := hplan.1 ⟨_, rfl⟩
    exact ⟨iff_of_false nofun hfull, fun _ => ⟨_, rfl, isPlan_of_valid hvalid⟩⟩
  | empty =>
    have hsome := Classical.not_not.1 (mt hplan.2 nofun)
    exact ⟨iff_of_true rfl hsome, fun hnone => absurd hsome hnone⟩

/-- The root is a child of itself, the first group is one of its own children and has another one
twice, which leads back to it, and an empty group cannot be reached. -/
theorem closingPlan_total_cyclic :
    let s : PredicateSet := PredicateSet.empty.setFlag .unassigned
    let t : Tree :=
      ⟨#[⟨.and, .empty, none, [1, 0, 2]⟩, ⟨.or, .empty, some 0, [2, 1, 2]⟩,
        ⟨.and, s, some 1, [1]⟩, ⟨.or, .empty, some 9, []⟩]⟩
    let slots : List Slot := [⟨1, .none⟩, ⟨2, .parens 2⟩, ⟨0, .parens 1⟩]
    root < t.size ∧ (∀ n ∈ t.nodes.toList, ∀ id ∈ n.children, id < t.size) ∧
      (¬∃ id, t.Reaches id ∧ (t.node id).IsEmpty) ∧ t.closingPlan = .ok slots ∧
      t.IsPlan slots := by
  intro s t slots
  have hroot : root < t.size := by decide
  have hchildren : ∀ n ∈ t.nodes.toList, ∀ id ∈ n.children, id < t.size := by decide
  have hslots : t.closingPlan.toOption = some slots := by decide +kernel
  rw [toOption_eq_some] at hslots
  obtain ⟨-, hempty, hplan⟩ := closingPlan_total hroot hchildren
  have hfull : ¬∃ id, t.Reaches id ∧ (t.node id).IsEmpty := by
    rw [← hempty, hslots]
    exact nofun
  obtain ⟨planned, hplanned, hisPlan⟩ := hplan hfull
  obtain rfl : slots = planned := Except.ok.inj (hslots.symm.trans hplanned)
  exact ⟨hroot, hchildren, hfull, hslots, hisPlan⟩

end Tree

end Worklist
