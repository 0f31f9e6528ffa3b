import Worklist.Proofs.Predicate.Sound
import Worklist.Proofs.Tree.Depth
import Worklist.Proofs.Tree.Ends
import Worklist.Proofs.Tree.Groups

/-!
# Where brackets close

What the closing plan of a tree says about the tree.

* Depths.  `Falls` says that the brackets behind a group lead from its depth to that of the next
  group, and `Carries.falls_plan` that a plan falls in this way.
* Totals.  `closed_plan` says that as many brackets close as there are groups.
* `Closes` collects what holds of a whole plan, and `closes_plan` proves it for layouts.
* `isFull_iff_not_hollow` says which trees have a plan, and `closingPlan_closes` is the result for
  reachable queries.
-/

namespace Worklist

open ClosingPlan

/-! ## Depths -/

namespace ClosingPlan

variable {depth : NodeId → Nat} {behind : Nat}

/-- The depth of the next group, or what stands behind all groups. -/
def nextDepth (depth : NodeId → Nat) (behind : Nat) : List Slot → Nat
  | [] => behind
  | slot :: _ => depth slot.group

/-- The brackets behind each group lead from one level below it to the depth of the next group. -/
def Falls (depth : NodeId → Nat) (behind : Nat) : List Slot → Prop
  | [] => True
  | slot :: slots =>
    slot.closing.count + nextDepth depth behind slots = depth slot.group + 1 ∧
      Falls depth behind slots

theorem nextDepth_append (slots more : List Slot) :
    nextDepth depth behind (slots ++ more) =
      nextDepth depth (nextDepth depth behind more) slots := by
  cases slots <;> rfl

theorem falls_append {slots more : List Slot} :
    Falls depth behind (slots ++ more) ↔
      Falls depth (nextDepth depth behind more) slots ∧ Falls depth behind more := by
  induction slots with
  | nil => simp [Falls]
  | cons slot slots ih => rw [List.cons_append, Falls, Falls, ih, nextDepth_append, and_assoc]

/-- One more bracket behind the last group leads one level further up. -/
theorem Falls.closeLast {slots : List Slot} (hne : slots ≠ [])
    (h : Falls depth (behind + 1) slots) : Falls depth behind (Forest.closeLast slots) := by
  obtain ⟨init, last, rfl⟩ : ∃ init last, slots = init ++ [last] :=
    ⟨_, _, (List.dropLast_concat_getLast hne).symm⟩
  rw [falls_append] at h
  rw [Forest.closeLast_append, falls_append]
  obtain ⟨hinit, hlast, -⟩ := h
  refine ⟨hinit, ?_, trivial⟩
  rw [nextDepth] at hlast
  show last.closing.count + 1 + behind = depth last.group + 1
  omega

theorem Falls.getElem {slots : List Slot} (h : Falls depth behind slots) {i : Nat}
    (hi : i + 1 < slots.length) :
    slots[i].closing.count + depth slots[i + 1].group = depth slots[i].group + 1 := by
  induction slots generalizing i with
  | nil => simp at hi
  | cons slot slots ih =>
    obtain ⟨hslot, hslots⟩ := h
    cases i with
    | zero =>
      cases slots with
      | nil => simp at hi
      | cons next slots => exact hslot
    | succ i => exact ih hslots (by simpa using hi)

theorem Falls.getLast? {slots : List Slot} (h : Falls depth behind slots) {last : Slot}
    (hlast : slots.getLast? = some last) : last.closing.count + behind = depth last.group + 1 := by
  obtain ⟨init, rfl⟩ := List.getLast?_eq_some_iff.1 hlast
  exact (falls_append.1 h).2.1

end ClosingPlan

namespace Tree

open Forest

variable {t : Tree} {f : Forest} {parent first : Nat}

/-- The first group of a carried forest is one level below the parent of the forest. -/
theorem Carries.nextDepth_plan (ht : t.ParentsFirst) (h : t.Carries parent first f) :
    nextDepth t.depth (t.depth parent + 1) (f.plan first) = t.depth parent + 1 := by
  cases f with
  | nil => rfl
  | cons c s below after =>
    have hparent : (t.node first).parent = some parent := by
      rw [node_eq_of_get? h.1]
    rw [plan_eq, range'_size_cons, List.map_cons]
    exact depth_of_parent ht hparent

/-- The plan of a carried forest falls back to the depth of its outermost groups. -/
theorem Carries.falls_plan (ht : t.ParentsFirst) (h : t.Carries parent first f) :
    Falls t.depth (t.depth parent + 1) (f.plan first) := by
  induction f generalizing parent first with
  | nil => trivial
  | cons c s below after ihb iha =>
    obtain ⟨hnode, hbelow, hafter⟩ := h
    have hdepth : t.depth first = t.depth parent + 1 := by
      refine depth_of_parent ht ?_
      rw [node_eq_of_get? hnode]
    -- before the first group closes, its groups lead back to one level below it
    have hfirst : Falls t.depth (t.depth first + 1) (⟨first, .none⟩ :: below.plan (first + 1)) := by
      refine ⟨?_, ihb hbelow⟩
      rw [hbelow.nextDepth_plan ht]
      exact Nat.zero_add _
    rw [plan, falls_append, hafter.nextDepth_plan ht, ← hdepth]
    exact ⟨hfirst.closeLast (List.cons_ne_nil _ _), hdepth ▸ iha hafter⟩

end Tree

/-! ## Totals -/

namespace ClosingPlan

/-- The number of brackets that close behind slots. -/
def closed (slots : List Slot) : Nat :=
  slots.foldr (fun slot closed => slot.closing.count + closed) 0

theorem closed_append (slots more : List Slot) :
    closed (slots ++ more) = closed slots + closed more := by
  induction slots with
  | nil => exact (Nat.zero_add _).symm
  | cons slot slots ih =>
    show slot.closing.count + closed (slots ++ more) = closed (slot :: slots) + closed more
    rw [ih, ← Nat.add_assoc]
    rfl

theorem closed_closeLast {slots : List Slot} (hne : slots ≠ []) :
    closed (Forest.closeLast slots) = closed slots + 1 := by
  obtain ⟨init, last, rfl⟩ : ∃ init last, slots = init ++ [last] :=
    ⟨_, _, (List.dropLast_concat_getLast hne).symm⟩
  rw [Forest.closeLast_append, closed_append, closed_append]
  rfl

/-- As many brackets close as there are groups. -/
theorem closed_plan (f : Forest) (first : Nat) : closed (f.plan first) = f.size := by
  induction f generalizing first with
  | nil => rfl
  | cons c s below after ihb iha =>
    have hfirst : closed (⟨first, .none⟩ :: below.plan (first + 1)) = below.size := by
      rw [← ihb (first + 1)]
      exact Nat.zero_add _
    rw [Forest.plan, closed_append, closed_closeLast (List.cons_ne_nil _ _), hfirst, iha,
      Forest.size]
    omega

end ClosingPlan

/-! ## Whole plans -/

namespace Tree

open Forest

/-- What the closing plan of a tree says about it. -/
structure Closes (t : Tree) (slots : List Slot) : Prop where
  /-- The groups below the root stand in pre-order. -/
  groups : slots.map Slot.group = t.preorder.tail
  /-- Between two groups as many brackets close as it takes from one level below the first to the
  level of the second. -/
  between : ∀ (i : Nat) (h : i + 1 < slots.length),
    slots[i].closing.count + t.depth slots[i + 1].group = t.depth slots[i].group + 1
  /-- Behind the last group all brackets close that are open. -/
  last : ∀ slot, slots.getLast? = some slot → slot.closing.count = t.depth slot.group
  /-- Exactly the groups with children stay open. -/
  stays : ∀ slot ∈ slots, slot.closing = .none ↔ (t.node slot.group).children ≠ []
  /-- A group without children closes itself and the groups around it that it is the last of. -/
  closes : ∀ slot ∈ slots, (t.node slot.group).children = [] →
    slot.closing.count = 1 + (t.preorder.tail.filter fun id =>
      id ≠ slot.group ∧ (t.subtree id).getLast? = some slot.group).length
  /-- Every group closes once. -/
  total : closed slots = slots.length

/-- A group without children is alone in its subtree. -/
theorem Ascending.subtree_of_leaf {t : Tree} (ht : t.Ascending) {id : Nat}
    (h : (t.node id).children = []) : t.subtree id = [id] := by
  rw [subtree_eq ht, h, List.flatMap_nil]

/-- What satisfies a condition among different values is one of them and the others. -/
theorem countP_of_mem {ids : List Nat} (hids : ids.Nodup) {p : Nat → Bool} {id : Nat}
    (hid : id ∈ ids) (hp : p id = true) :
    ids.countP p = 1 + (ids.filter fun x => x ≠ id ∧ p x = true).length := by
  have hothers : ids.countP (fun x => p x && x != id) =
      (ids.filter fun x => x ≠ id ∧ p x = true).length := by
    rw [← List.countP_eq_length_filter]
    refine List.countP_congr fun x _ => ?_
    simp [and_comm]
  rw [(List.perm_cons_erase hid).countP_eq, List.countP_cons_of_pos hp, hids.erase_eq_filter,
    List.countP_filter, hothers, Nat.add_comm]

theorem closes_plan (s : PredicateSet) (f : Forest) : (ofForest s f).Closes (f.plan 1) := by
  have ht := ascending_ofForest s f
  have hcarries := carries_ofForest s f
  have hroot : (ofForest s f).depth root + 1 = 1 := by
    rw [depth_of_root rfl]
  have hfalls := hcarries.falls_plan (parentsFirst_ofForest s f)
  have htail : (ofForest s f).preorder.tail = List.range' 1 f.size := by
    rw [preorder_ofForest, List.range_eq_range', List.range'_succ, List.tail_cons]
  have hslot : ∀ slot ∈ f.plan 1, slot.group ∈ List.range' 1 f.size ∧
      slot.closing = .ofCount ((f.ends 1).count slot.group) := by
    intro slot hmem
    rw [plan_eq, List.mem_map] at hmem
    obtain ⟨id, hid, rfl⟩ := hmem
    exact ⟨hid, rfl⟩
  refine ⟨?_, ?_, ?_, ?_, ?_, ?_⟩
  · rw [groups_plan, htail]
  · intro i hi
    exact hfalls.getElem hi
  · intro slot hlast
    have hcount := hfalls.getLast? hlast
    omega
  · intro slot hmem
    obtain ⟨hid, hclosing⟩ := hslot slot hmem
    rw [hclosing, Closing.ofCount_eq_none, List.count_eq_zero, hcarries.mem_ends _ hid]
  · intro slot hmem hleaf
    obtain ⟨hid, hclosing⟩ := hslot slot hmem
    rw [hclosing, Closing.count_ofCount, hcarries.count_ends (by rw [size_ofForest]; omega),
      countP_of_mem List.nodup_range' hid (by simp [ht.subtree_of_leaf hleaf]), htail]
    simp
  · rw [closed_plan, ← List.length_map (f := Slot.group), groups_plan, List.length_range']

/-! ## Groups without filters -/

/-- A subtree has filters if its group has or the subtree of a child. -/
theorem subtreeHasFilters_eq {t : Tree} (ht : t.Ascending) (id : Nat) :
    t.subtreeHasFilters id =
      (!(t.node id).predicates.isEmpty || (t.node id).children.any t.subtreeHasFilters) := by
  rw [subtreeHasFilters, subtree_eq ht, List.any_cons, List.any_flatMap]
  rfl

/-- In a full forest every subtree has filters: a group without filters has children. -/
theorem Carries.isFull_iff_subtrees {t : Tree} (ht : t.Ascending) {f : Forest} {parent first : Nat}
    (h : t.Carries parent first f) :
    f.isFull = true ↔ ∀ id ∈ List.range' first f.size, t.subtreeHasFilters id = true := by
  rw [h.isFull_iff]
  constructor
  · intro hfull id
    induction id using ht.induction with
    | step id ih =>
      intro hid
      rw [subtreeHasFilters_eq ht, Bool.or_eq_true]
      rcases hfull id hid with hchildren | hfilters
      · obtain ⟨child, hc⟩ := List.exists_mem_of_ne_nil _ hchildren
        have hrange := List.mem_range'_1.1 hid
        have hlt := h.mem_children hrange.1 hrange.2 hc
        refine .inr (List.any_eq_true.2 ⟨child, hc, ih child hc ?_⟩)
        rw [List.mem_range'_1]
        omega
      · exact .inl (by rw [hfilters]; rfl)
  · intro hfilters id hid
    have hid := hfilters id hid
    rw [subtreeHasFilters_eq ht, Bool.or_eq_true] at hid
    rcases hid with hid | hid
    · exact .inr (by simpa using hid)
    · refine .inl fun hnil => ?_
      rw [hnil] at hid
      cases hid

/-- A forest is full if every group of its tree has a filter or a group with one below it. -/
theorem isFull_iff_not_hollow (s : PredicateSet) (f : Forest) :
    f.isFull = true ↔ ¬∃ id : Nat, id ≠ root ∧ id < (ofForest s f).size ∧
      (ofForest s f).subtreeHasFilters id = false := by
  rw [(carries_ofForest s f).isFull_iff_subtrees (ascending_ofForest s f)]
  constructor
  · rintro hall ⟨id, hne, hlt, hnone⟩
    rw [hall id (mem_range'_ofForest.2 ⟨hne, hlt⟩)] at hnone
    cases hnone
  · intro hnone id hid
    obtain ⟨hne, hlt⟩ := mem_range'_ofForest.1 hid
    rw [← Bool.not_eq_false]
    exact fun hid' => hnone ⟨id, hne, hlt, hid'⟩

end Tree

/-- The closing plan of a reachable query.

It cannot be made exactly if some group below the root has no filter, neither itself nor in a
group below it.  Otherwise the plan lists the groups below the root in pre-order, and the brackets
behind each of them follow from the depths: a group with children stays open, and one without
closes itself and the groups around it that it is the last of. -/
theorem Query.closingPlan_closes {q : Query} (hq : q.Reachable) :
    (q.tree.closingPlan = .error .emptyGroup ↔
      ∃ id : Nat, id ≠ Tree.root ∧ id < q.tree.size ∧ q.tree.subtreeHasFilters id = false) ∧
    ((¬∃ id : Nat, id ≠ Tree.root ∧ id < q.tree.size ∧ q.tree.subtreeHasFilters id = false) →
      ∃ slots, q.tree.closingPlan = .ok slots ∧ q.tree.Closes slots) := by
  obtain ⟨s, f, htree, -⟩ := hq.sound
  have hfull := Tree.isFull_iff_not_hollow s f
  rw [← htree] at hfull
  have hplan := Tree.closingPlan_ofForest s f
  rw [← htree] at hplan
  rw [hplan]
  by_cases hbare : ∃ id : Nat, id ≠ Tree.root ∧ id < q.tree.size ∧
      q.tree.subtreeHasFilters id = false
  · rw [if_neg fun h => hfull.1 h hbare]
    exact ⟨⟨fun _ => hbare, fun _ => rfl⟩, fun h => absurd hbare h⟩
  · rw [if_pos (hfull.2 hbare)]
    refine ⟨⟨?_, fun h => absurd h hbare⟩, fun _ => ⟨_, rfl, htree ▸ Tree.closes_plan s f⟩⟩
    intro h
    cases h

/-- Two groups within a group, and a third one that closes with it. -/
theorem Query.closingPlan_closes_built :
    ∃ (q : Query) (slots : List Slot), q.Reachable ∧ q.tree.closingPlan = .ok slots ∧
      q.tree.Closes slots ∧
        slots = [⟨1, .parens 1⟩, ⟨2, .none⟩, ⟨3, .parens 1⟩, ⟨4, .none⟩, ⟨5, .parens 3⟩] := by
  let q := built [.openGroup .or, .setFlag .unassigned, .closeGroup .or, .openGroup .or,
    .openGroup .and, .setTerm .name (.text "check") rfl, .closeGroup .and, .openGroup .and,
    .openGroup .or, .setTerm .owner (.text "ada") rfl, .closeGroup .or, .closeGroup .and,
    .closeGroup .or]
  have hslots : q.tree.closingPlan.toOption =
      some [⟨1, .parens 1⟩, ⟨2, .none⟩, ⟨3, .parens 1⟩, ⟨4, .none⟩, ⟨5, .parens 3⟩] := by
    decide +kernel
  have hq : q.Reachable := reachable_built _
  obtain ⟨hbare, hcloses⟩ := closingPlan_closes hq
  have hfull : ¬∃ id : Nat, id ≠ Tree.root ∧ id < q.tree.size ∧
      q.tree.subtreeHasFilters id = false := by
    intro h
    rw [hbare.2 h] at hslots
    cases hslots
  obtain ⟨slots, hplan, hslots'⟩ := hcloses hfull
  rw [hplan] at hslots
  exact ⟨q, slots, hq, hplan, hslots', Option.some.inj hslots⟩

end Worklist
