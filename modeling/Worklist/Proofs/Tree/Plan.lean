import Worklist.Closing
import Worklist.Proofs.Tree.Forest

/-!
# The closing plan of a forest

The planner runs a stack of steps over the array of a tree.  On a tree that
carries a forest its run is a recursion on the forest: the slot of a group,
the plan of the groups below it, one more bracket behind the last of these
slots, and then the plan of the groups after it.

* `Forest.plan` is that recursion, and `groups_plan` says that it lists the
  positions of the forest in order.
* `run_enter_tops` is the invariant of the run.  The groups on top of the
  stack are used up together with two units of fuel for each group, and
  nothing behind the forest is visited.
* `closingPlan_ofForest` is the result: the plan of the forest, or an error if
  some group has neither filters nor children.
-/

namespace Worklist

open ClosingPlan

namespace Forest

/-- One more bracket behind the last slot of a plan. -/
def closeLast (slots : List Slot) : List Slot := (bumpLast slots.reverse).reverse

/-- The closing plan of a forest whose nodes start at `first`. -/
def plan (first : Nat) : Forest → List Slot
  | nil => []
  | cons _ _ below after =>
    closeLast (⟨first, .none⟩ :: below.plan (first + 1)) ++ after.plan (first + 1 + below.size)

/-! ## The last slot -/

theorem bumpLast_append {slots : List Slot} (h : slots ≠ []) (behind : List Slot) :
    bumpLast (slots ++ behind) = bumpLast slots ++ behind := by
  cases slots with
  | nil => exact absurd rfl h
  | cons slot slots => rfl

/-- The planner keeps its plan backwards, so a bracket behind the last slot of a part of the plan
is a bracket behind the first slot of the reversed part. -/
theorem bumpLast_reverse_append {slots : List Slot} (h : slots ≠ []) (behind : List Slot) :
    bumpLast (slots.reverse ++ behind) = (closeLast slots).reverse ++ behind := by
  rw [bumpLast_append (by simpa using h), closeLast, List.reverse_reverse]

theorem map_group_bumpLast (slots : List Slot) :
    (bumpLast slots).map Slot.group = slots.map Slot.group := by
  cases slots <;> rfl

theorem map_group_closeLast (slots : List Slot) :
    (closeLast slots).map Slot.group = slots.map Slot.group := by
  rw [closeLast, List.map_reverse, map_group_bumpLast, ← List.map_reverse, List.reverse_reverse]

/-- The plan lists the positions of the forest in order. -/
theorem groups_plan (first : Nat) (f : Forest) :
    (f.plan first).map Slot.group = List.range' first f.size := by
  induction f generalizing first with
  | nil => rfl
  | cons c s below after ihb iha =>
    rw [plan, List.map_append, map_group_closeLast, List.map_cons, ihb, iha, range'_size_cons,
      List.cons_append]

end Forest

namespace ClosingPlan

open Forest

/-- The step that enters a group for the first time. -/
theorem run_enter {t : Tree} {id : Nat} {n : Node} (hnode : t.node id = n) {visited : Array Bool}
    (hv : visited[id]?.getD false = false) (fuel : Nat) (stack : List Step) (slots : List Slot) :
    run t (fuel + 1) (.enter id :: stack) visited slots =
      if n.children.isEmpty && n.predicates.isEmpty then .error .emptyGroup
      else run t fuel (n.children.map .enter ++ .leave :: stack) (visited.setIfInBounds id true)
        (⟨id, .none⟩ :: slots) := by
  rw [run, hv, hnode]
  rfl

/-- The run of the planner over the outermost groups of a carried forest.  `visited` may mark
positions in front of the forest only, and the run again marks nothing behind it. -/
theorem run_enter_tops {t : Tree} {f : Forest} {parent first : Nat}
    (h : t.Carries parent first f) (fuel : Nat) (stack : List Step) (visited : Array Bool)
    (slots : List Slot) (hv : ∀ id, first ≤ id → visited[id]?.getD false = false) :
    ∃ visited' : Array Bool,
      (∀ id, first + f.size ≤ id → visited'[id]?.getD false = false) ∧
        run t (2 * f.size + fuel) ((f.tops first).map .enter ++ stack) visited slots =
          if f.isFull then run t fuel stack visited' ((f.plan first).reverse ++ slots)
          else .error .emptyGroup := by
  induction f generalizing parent first fuel stack visited slots with
  | nil =>
    refine ⟨visited, ?_, ?_⟩
    · simpa [Forest.size] using hv
    · simp [Forest.size, tops, plan, isFull]
  | cons c s below after ihb iha =>
    obtain ⟨hnode, hbelow, hafter⟩ := h
    have hfuel : 2 * (Forest.cons c s below after).size + fuel =
        2 * below.size + (2 * after.size + fuel + 1) + 1 := by
      rw [Forest.size]
      omega
    rw [hfuel, tops, List.map_cons, List.cons_append,
      run_enter (Tree.node_eq_of_get? hnode) (hv first (Nat.le_refl _)), isEmpty_tops, isFull,
      Forest.size]
    by_cases hempty : ((below.tops 0).isEmpty && s.isEmpty) = true
    · exact ⟨visited, fun id hid => hv id (by omega), by simp [hempty]⟩
    · have hmark : ∀ id, first + 1 ≤ id →
          (visited.setIfInBounds first true)[id]?.getD false = false := by
        intro id hid
        rw [Array.getElem?_setIfInBounds, if_neg (by omega)]
        exact hv id (by omega)
      obtain ⟨visited₁, hv₁, hrun₁⟩ := ihb hbelow (2 * after.size + fuel + 1)
        (.leave :: ((after.tops (first + 1 + below.size)).map .enter ++ stack)) _
        (⟨first, .none⟩ :: slots) hmark
      obtain ⟨visited₂, hv₂, hrun₂⟩ := iha hafter fuel stack visited₁
        ((closeLast (⟨first, .none⟩ :: below.plan (first + 1))).reverse ++ slots) hv₁
      refine ⟨visited₂, fun id hid => hv₂ id (by omega), ?_⟩
      rw [if_neg hempty, hrun₁]
      cases below.isFull with
      | false => simp
      | true =>
        have hlast : bumpLast ((below.plan (first + 1)).reverse ++ ⟨first, .none⟩ :: slots) =
            (closeLast (⟨first, .none⟩ :: below.plan (first + 1))).reverse ++ slots := by
          rw [← bumpLast_reverse_append (List.cons_ne_nil _ _), List.reverse_cons,
            List.append_assoc, List.singleton_append]
        rw [if_pos rfl, run, hlast, hrun₂, plan, List.reverse_append, List.append_assoc]
        simp [hempty]

/-- The fuel of the planner covers two steps for each group of a forest. -/
theorem foldr_fuel_nodes (parent first base : Nat) (f : Forest) :
    2 * f.size + base =
      (f.nodes parent first).foldr (fun n steps => n.children.length + 1 + steps) base +
        (f.tops first).length := by
  induction f generalizing parent first base with
  | nil => simp [Forest.size, tops, nodes]
  | cons c s below after ihb iha =>
    have ha := iha parent (first + 1 + below.size) base
    have hb := ihb first (first + 1) ((after.nodes parent (first + 1 + below.size)).foldr
      (fun n steps => n.children.length + 1 + steps) base)
    rw [Forest.size, nodes, tops, List.foldr_cons, List.foldr_append, List.length_cons]
    simp only
    omega

theorem fuelFor_ofForest (s : PredicateSet) (f : Forest) :
    fuelFor (Tree.ofForest s f) = 2 * f.size + ((f.tops 1).length + 1) := by
  have h := foldr_fuel_nodes Tree.root 1 (f.tops 1).length f
  rw [fuelFor, Tree.node_root_ofForest, Tree.ofForest, List.foldr_cons]
  simp only
  omega

end ClosingPlan

namespace Tree

open Forest

/-- The planner succeeds on the layout of a forest exactly if no group lacks both filters and
children, and then it makes the plan of the forest. -/
theorem closingPlan_ofForest (s : PredicateSet) (f : Forest) :
    (ofForest s f).closingPlan = if f.isFull then .ok (f.plan 1) else .error .emptyGroup := by
  have hv : ∀ id, 1 ≤ id →
      (Array.replicate (ofForest s f).size false)[id]?.getD false = false := by
    intro id _
    rw [Array.getElem?_replicate]
    split <;> rfl
  obtain ⟨visited, -, hrun⟩ :=
    run_enter_tops (carries_ofForest s f) ((f.tops 1).length + 1) [] _ [] hv
  rw [List.append_nil, List.append_nil] at hrun
  rw [closingPlan, fuelFor_ofForest, node_root_ofForest, hrun]
  cases f.isFull with
  | false => rfl
  | true =>
    rw [if_pos rfl, if_pos rfl, run]
    exact congrArg Except.ok (List.reverse_reverse _)

end Tree

end Worklist
