import Worklist.Proofs.Tree.Bounds
import Worklist.Proofs.Wire.Query

/-!
# Positions in decoded trees

What reading a tree says about its positions, and when the walks over a decoded tree stay within
its array.

* `Gives` says that everything a reader reads has a property, and `gives_tree` that positions are
  read as numbers of 64 bits.
* `decoded_tree_bounds` is the result: nothing else is asked of positions, so a decoded tree need
  not have a root, and its positions may lead anywhere; and the walks stay inside exactly if those
  positions that they come to are groups of the tree.
* `exists_decoded_outside` gives texts of trees that walks leave.
-/

namespace Worklist

/-- All positions in a tree are numbers of 64 bits. -/
def Tree.HasWordPositions (t : Tree) : Prop :=
  ∀ n ∈ t.nodes.toList, (∀ id ∈ n.parent, id < UInt64.size) ∧ ∀ id ∈ n.children, id < UInt64.size

namespace Wire

variable {α : Type} {read? : Json → Option α} {P : α → Prop}

/-! ## What is read -/

/-- Everything that a reader reads has a property. -/
def Gives (read? : Json → Option α) (P : α → Prop) : Prop := ∀ j a, read? j = some a → P a

theorem gives_nat : Gives nat? (· < UInt64.size) := by
  intro j n h
  obtain ⟨i, hi, rfl⟩ := Option.map_eq_some_iff.1 h
  cases j with
  | integer m =>
    rw [integer?] at hi
    split at hi
    · rename_i hbounds
      cases hi
      have hpos : 0 < UInt64.size := by decide
      omega
    · cases hi
  | _ => cases hi

theorem gives_list (h : Gives read? P) : Gives (list? read?) fun as => ∀ a ∈ as, P a := by
  intro j as has
  cases j with
  | array items =>
    change items.mapM read? = some as at has
    induction items generalizing as with
    | nil =>
      cases has
      exact List.forall_mem_nil P
    | cons item items ih =>
      rw [List.mapM_cons] at has
      obtain ⟨a, ha, has⟩ := Option.bind_eq_some_iff.1 has
      obtain ⟨more, hmore, has⟩ := Option.bind_eq_some_iff.1 has
      cases has
      exact List.forall_mem_cons.2 ⟨h item a ha, ih more hmore⟩
  | _ => cases has

theorem gives_nullable (h : Gives read? P) : Gives (nullable? read?) fun o => ∀ a ∈ o, P a := by
  intro j o ho a ha
  unfold nullable? at ho
  split at ho
  · cases ho
    cases ha
  · obtain ⟨b, hb, rfl⟩ := Option.map_eq_some_iff.1 ho
    cases ha
    exact h j a hb

/-- A member that has to be there has what its reader gives. -/
theorem Gives.required (h : Gives read? P) {r : Record} {name : String} {a : α}
    (ha : r.required? name read? = some a) : P a := by
  obtain ⟨j, -, hj⟩ := Option.bind_eq_some_iff.1 ha
  exact h j a hj

/-- A member that may be left out has what its reader gives, if it is there. -/
theorem Gives.optional (h : Gives read? P) {r : Record} {name : String} {o : Option α}
    (ho : r.optional? name read? = some o) : ∀ a ∈ o, P a := by
  rw [Record.optional?] at ho
  cases hmember : r.members.lookup name with
  | some j =>
    rw [hmember] at ho
    exact gives_nullable h j o ho
  | none =>
    rw [hmember] at ho
    obtain ⟨-, rfl⟩ : r.isPositional = false ∧ none = o := by simpa using ho
    intro a ha
    cases ha

theorem gives_node :
    Gives node? fun n =>
      (∀ id ∈ n.parent, id < UInt64.size) ∧ ∀ id ∈ n.children, id < UInt64.size := by
  intro j n h
  obtain ⟨r, -, h⟩ := Option.bind_eq_some_iff.1 h
  obtain ⟨connective, -, h⟩ := Option.bind_eq_some_iff.1 h
  obtain ⟨predicates, -, h⟩ := Option.bind_eq_some_iff.1 h
  obtain ⟨parent, hparent, h⟩ := Option.bind_eq_some_iff.1 h
  obtain ⟨children, hchildren, h⟩ := Option.bind_eq_some_iff.1 h
  cases h
  exact ⟨gives_nat.optional hparent, (gives_list gives_nat).required hchildren⟩

theorem gives_tree : Gives tree? Tree.HasWordPositions := by
  intro j t h
  obtain ⟨r, -, h⟩ := Option.bind_eq_some_iff.1 h
  obtain ⟨nodes, hnodes, h⟩ := Option.bind_eq_some_iff.1 h
  cases h
  have hpositions := (gives_list gives_node).required hnodes
  rw [Tree.HasWordPositions, List.toList_toArray]
  exact hpositions

/-! ## Walks over decoded trees -/

/-- When the walks over a decoded tree stay within its array.

Reading asks nothing of positions but that they have 64 bits.  If a tree has a root and all its
positions are groups of it, the planner and the walks along the parents never look outside the
array.  In any tree a walk that stays inside is the walk of the tree.  The planner makes a plan
without looking outside exactly if there is a root and all positions that it comes to are groups
that are not empty, and the walks along the parents stay inside exactly if all parents are groups
of the tree. -/
theorem decoded_tree_bounds (t : Tree) :
    ((∀ n ∈ t.nodes.toList, n.predicates.Portable) →
      ((∃ text, (Json.ofText? text).bind tree? = some t) ↔ t.HasWordPositions)) ∧
    (t.HoldsItsGroups →
      t.checkedPlan = some t.closingPlan ∧
        ∀ id n, t.get? id = some n → ∀ steps,
          t.checkedDepth steps id = some (t.depthWithin steps id)) ∧
    (∀ result, t.checkedPlan = some result → t.closingPlan = result) ∧
    (∀ steps id depth, t.checkedDepth steps id = some depth → t.depthWithin steps id = depth) ∧
    ((∃ slots, t.checkedPlan = some (.ok slots)) ↔
      Tree.root < t.size ∧ ∀ id, t.Reaches id → ∃ n, t.get? id = some n ∧ ¬n.IsEmpty) ∧
    ((∀ id n, t.get? id = some n → ∀ steps, t.checkedDepth steps id ≠ none) ↔
      ∀ n ∈ t.nodes.toList, ∀ id ∈ n.parent, id < t.size) := by
  refine ⟨fun hportable => ⟨?_, ?_⟩, fun h => ⟨h.checkedPlan_eq, ?_⟩,
    fun _ => Tree.closingPlan_of_checkedPlan, fun _ _ _ => Tree.depthWithin_of_checkedDepth,
    Tree.exists_checkedPlan_iff, Tree.checkedDepth_ne_none_iff⟩
  · rintro ⟨text, htext⟩
    obtain ⟨j, -, hj⟩ := Option.bind_eq_some_iff.1 htext
    exact gives_tree j t hj
  · intro hpositions
    have ht : t.Portable := fun n hn =>
      ⟨hportable n hn, (hpositions n hn).1, (hpositions n hn).2⟩
    exact ⟨_, (survives_tree ht).roundTrips⟩
  · intro id n hn steps
    obtain ⟨depth, hdepth⟩ :=
      Option.ne_none_iff_exists'.1 (Tree.checkedDepth_ne_none_iff.2 h.parent id n hn steps)
    rw [hdepth, Tree.depthWithin_of_checkedDepth hdepth]

/-- A group with nothing but switches can be written. -/
theorem portable_of_flags {s : PredicateSet} (hterms : s.terms = .empty)
    (hvariables : s.variablePredicates = []) : s.Portable where
  terms hget := by
    rw [hterms, Table.get?_empty] at hget
    cases hget
  variablePredicates := by
    rw [hvariables]
    exact List.forall_mem_nil _

/-- A tree in which two groups share a third one that is a child of the root twice more, and whose
last group leads to a position behind it. -/
theorem decoded_tree_bounds_shared :
    let s : PredicateSet := PredicateSet.empty.setFlag .unassigned
    let shared : Tree :=
      ⟨#[⟨.and, .empty, none, [2, 1, 2]⟩, ⟨.or, .empty, some 0, [2]⟩, ⟨.and, s, some 1, []⟩]⟩
    let leading : Tree := ⟨#[⟨.and, .empty, none, [1]⟩, ⟨.or, s, some 9, [2]⟩]⟩
    ((∀ n ∈ leading.nodes.toList, n.predicates.Portable) ∧
        ∃ text, (Json.ofText? text).bind tree? = some leading) ∧
      (shared.HoldsItsGroups ∧ shared.checkedPlan = some shared.closingPlan ∧
        ∀ id n, shared.get? id = some n → ∀ steps,
          shared.checkedDepth steps id = some (shared.depthWithin steps id)) ∧
      (¬∃ slots, leading.checkedPlan = some (.ok slots)) ∧
      ¬∀ id n, leading.get? id = some n → ∀ steps, leading.checkedDepth steps id ≠ none := by
  intro s shared leading
  obtain ⟨-, hinside, -⟩ := decoded_tree_bounds shared
  obtain ⟨hread, -, -, -, hplan, hdepth⟩ := decoded_tree_bounds leading
  have hleading : ∀ n ∈ leading.nodes.toList, n.predicates.Portable :=
    List.forall_mem_cons.2
      ⟨portable_of_flags rfl rfl, List.forall_mem_singleton.2 (portable_of_flags rfl rfl)⟩
  have hshared : shared.HoldsItsGroups := ⟨by decide, by decide, by decide⟩
  refine ⟨⟨hleading, (hread hleading).2 ?_⟩, ⟨hshared, hinside hshared⟩, ?_, ?_⟩
  · unfold Tree.HasWordPositions
    decide
  · intro hslots
    have hreached : leading.Reaches 2 :=
      .next (.top (List.mem_singleton_self 1)) (List.mem_singleton_self 2)
    obtain ⟨n, hn, -⟩ := (hplan.1 hslots).2 2 hreached
    cases hn
  · intro hstays
    have hparents := hdepth.1 hstays
    revert hparents
    decide

/-- A text of a tree without a root, and a text of a tree whose root leads to positions that are no
groups of it: the planner leaves both arrays, and the walk along the parents the second. -/
theorem exists_decoded_outside :
    (∃ t, (Json.ofText? "\x7b\"nodes\": []\x7d").bind tree? = some t ∧ t.size = 0 ∧
      t.checkedPlan = none) ∧
    ∃ text t n, (Json.ofText? text).bind tree? = some t ∧ t.get? Tree.root = some n ∧
      n.parent = some 1 ∧ n.children = [5] ∧ t.size = 1 ∧ t.checkedPlan = none ∧
        t.checkedDepth 2 Tree.root = none := by
  have hnodes : (Json.ofText? "\x7b\"nodes\": []\x7d").bind tree? = some ⟨#[]⟩ := by
    decide +kernel
  let n : Node := ⟨.and, .empty, some 1, [5]⟩
  have hn : n.Portable := ⟨portable_of_flags rfl rfl, by decide, by decide⟩
  have ht : (⟨#[n]⟩ : Tree).Portable := List.forall_mem_singleton.2 hn
  exact ⟨⟨_, hnodes, rfl, rfl⟩,
    ⟨_, _, n, (survives_tree ht).roundTrips, rfl, rfl, rfl, rfl, rfl, rfl⟩⟩

end Wire

end Worklist
