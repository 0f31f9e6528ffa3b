import Worklist.Proofs.Criteria.Filters

/-!
# The text of a clause, group by group

The clause is written in one pass over the closing plan: a separator where
something of the same parent stands in front, an opening bracket, the filters
of the group, and the brackets that close behind it.  `nestedText` is the same
text by recursion over the groups, in which every child stands in brackets
behind the filters of its parent.

* Joined texts.  `followed` is what comes behind a text that is already
  written.
* One bracket.  `foldl_closeLast` moves the bracket of the plan to the end of
  the text.
* The loop.  `foldl_plan` is the invariant: writing the plan of a forest adds
  its groups in brackets, each behind a separator unless nothing of the parent
  is written yet.  It needs that no group of the forest is marked as written.
* `clause_nested` is the result for reachable queries.
-/

namespace Worklist

open Sql

/-! ## Joined texts -/

/-- Texts behind a text that is already written, or from the start. -/
def followed (separator : String) (begun : Bool) : List String → String
  | [] => ""
  | t :: ts => (if begun then separator else "") ++ t ++ followed separator true ts

theorem joined_cons (separator t : String) (ts : List String) :
    joined separator (t :: ts) = t ++ followed separator true ts := by
  induction ts generalizing t with
  | nil => simp [joined, followed]
  | cons u ts ih =>
    rw [joined, String.intercalate_cons_cons, ← joined, ih, followed, if_pos rfl]
    simp only [String.append_assoc]

theorem followed_append (separator : String) (begun : Bool) (ts us : List String) :
    followed separator begun (ts ++ us) =
      followed separator begun ts ++ followed separator (begun || !ts.isEmpty) us := by
  induction ts generalizing begun with
  | nil => simp [followed]
  | cons t ts ih =>
    rw [List.cons_append, followed, followed, ih]
    simp [String.append_assoc]

theorem joined_append (separator : String) (ts us : List String) :
    joined separator (ts ++ us) = joined separator ts ++ followed separator (!ts.isEmpty) us := by
  have hstart : ∀ vs : List String, joined separator vs = followed separator false vs := by
    intro vs
    cases vs with
    | nil => simp [joined, followed]
    | cons v vs => simp [joined_cons, followed]
  rw [hstart, hstart, followed_append, Bool.false_or]

theorem texts_eq_map (conditions : List Condition) :
    texts conditions = conditions.map Condition.text := by
  induction conditions with
  | nil => rfl
  | cons condition conditions ih => rw [texts, ih, List.map_cons]

theorem paramsOfAll_eq_flatMap (conditions : List Condition) :
    paramsOfAll conditions = conditions.flatMap Condition.params := by
  induction conditions with
  | nil => rfl
  | cons condition conditions ih => rw [paramsOfAll, ih, List.flatMap_cons]

namespace Criteria

open Forest

variable {c : Criteria}

/-! ## The text by recursion -/

/-- The conditions for the filters of the group at a position. -/
def parts (c : Criteria) (id : NodeId) : List Condition :=
  (c.tree.node id).predicates.filters.map (c.condition (c.tree.node id).predicates)

/-- A text in brackets. -/
def bracketed (t : String) : String := "(" ++ t ++ ")"

/-- The text of a group: its filters, then its children in brackets. -/
def nestedText (c : Criteria) : NodeId → String :=
  c.tree.fold fun id below =>
    joined (separator (c.tree.node id).connective)
      ((c.parts id).map Condition.text ++ below.map bracketed)

theorem nestedText_eq (ht : c.tree.Ascending) (id : Nat) :
    c.nestedText id = joined (separator (c.tree.node id).connective)
      ((c.parts id).map Condition.text ++
        (c.tree.node id).children.map fun child => bracketed (c.nestedText child)) := by
  rw [nestedText, Tree.fold_eq ht, List.map_map]
  rfl

/-- The text of a group is that of its own filters, followed by its children. -/
theorem nestedText_eq_followed (ht : c.tree.Ascending) {id : Nat} {n : Node}
    (hn : c.tree.node id = n) :
    c.nestedText id = c.ownText n ++ followed (separator n.connective) (c.writesOwn n)
      (n.children.map fun child => bracketed (c.nestedText child)) := by
  rw [nestedText_eq ht, joined_append, ownText, writesOwn, texts_eq_map, ownConditions_eq, parts,
    hn, List.isEmpty_map]

/-! ## One slot -/

/-- Writes a slot of a group below another one. -/
theorem writeSlot_eq {id parent : Nat} {conn : Connective} {s : PredicateSet}
    {children : List NodeId} (hnode : c.tree.node id = ⟨conn, s, some parent, children⟩)
    (d : Draft) (closing : Closing) :
    c.writeSlot d ⟨id, closing⟩ =
      { text := d.text ++ c.leadText d.hasOwn id parent ++ "(" ++
          c.ownText ⟨conn, s, some parent, children⟩ ++
          String.ofList (List.replicate closing.count ')')
        params := d.params ++ c.ownParams ⟨conn, s, some parent, children⟩
        hasOwn := if c.writesOwn ⟨conn, s, some parent, children⟩ then
          d.hasOwn.setIfInBounds id true else d.hasOwn } := by
  rw [writeSlot, hnode]

/-- One more bracket behind a slot is one more bracket of the text. -/
theorem writeSlot_bump {slot : Slot} (hp : (c.tree.node slot.group).parent.isSome = true)
    (d : Draft) :
    c.writeSlot d { slot with closing := slot.closing.bump } =
      { c.writeSlot d slot with text := (c.writeSlot d slot).text ++ ")" } := by
  obtain ⟨id, closing⟩ := slot
  obtain ⟨parent, hparent⟩ := Option.isSome_iff_exists.1 hp
  have hnode : c.tree.node id = ⟨(c.tree.node id).connective, (c.tree.node id).predicates,
      some parent, (c.tree.node id).children⟩ := by
    rw [← hparent]
  rw [writeSlot_eq hnode, writeSlot_eq hnode, Closing.bump, Closing.count, List.replicate_succ',
    String.ofList_append]
  simp [String.append_assoc]

theorem foldl_closeLast {slots : List Slot} (hne : slots ≠ [])
    (hp : ∀ slot ∈ slots, (c.tree.node slot.group).parent.isSome = true) (d : Draft) :
    (closeLast slots).foldl c.writeSlot d =
      { slots.foldl c.writeSlot d with text := (slots.foldl c.writeSlot d).text ++ ")" } := by
  obtain ⟨init, last, rfl⟩ : ∃ init last, slots = init ++ [last] :=
    ⟨_, _, (List.dropLast_concat_getLast hne).symm⟩
  rw [closeLast, List.reverse_append, List.reverse_singleton, List.singleton_append,
    ClosingPlan.bumpLast, List.reverse_cons, List.reverse_reverse, List.foldl_append,
    List.foldl_append, List.foldl_cons, List.foldl_cons, List.foldl_nil, List.foldl_nil,
    writeSlot_bump (hp last (by simp))]

/-! ## The loop -/

/-- The slots for the positions of a forest belong to groups with a parent. -/
theorem isSome_parent_of_groups {f : Forest} {parent first : Nat}
    (h : c.tree.Carries parent first f) {slots : List Slot}
    (hgroups : slots.map Slot.group = List.range' first f.size) :
    ∀ slot ∈ slots, (c.tree.node slot.group).parent.isSome = true := by
  have hparent : ∀ id : Nat, id ∈ List.range' first f.size →
      (c.tree.node id).parent.isSome = true := by
    intro id hid
    rw [List.mem_range'_1] at hid
    obtain ⟨_, _, _, _, hat, -⟩ := h.node_spec hid.1 hid.2
    rw [hat]
    rfl
  intro slot hslot
  refine hparent slot.group ?_
  rw [← hgroups]
  exact List.mem_map_of_mem hslot

/-- What has been written between two drafts: a text, and marks between two positions. -/
structure Writes (before final : Draft) (text : String) (first behind : Nat) : Prop where
  text : final.text = before.text ++ text
  size : final.hasOwn.size = before.hasOwn.size
  kept : ∀ id : Nat, id < first → final.hasOwn[id]? = before.hasOwn[id]?
  fresh : ∀ id : Nat, behind ≤ id → final.hasOwn[id]?.getD false = false

/-- Writing one group opens its bracket and marks whether it has filters of its own. -/
theorem writes_slot {first parent : Nat} {n : Node} (hn : c.tree.node first = n)
    (hparent : n.parent = some parent) {d : Draft} (hsize : first < d.hasOwn.size)
    (hfresh : ∀ id, first ≤ id → d.hasOwn[id]?.getD false = false) :
    Writes d (c.writeSlot d ⟨first, .none⟩)
        (c.leadText d.hasOwn first parent ++ "(" ++ c.ownText n) first (first + 1) ∧
      (c.writeSlot d ⟨first, .none⟩).hasOwn[first]?.getD false = c.writesOwn n := by
  obtain ⟨conn, s, parent', children⟩ := n
  cases hparent
  have hmark : ∀ id : Nat, (c.writeSlot d ⟨first, .none⟩).hasOwn[id]? =
      if id = first ∧ c.writesOwn ⟨conn, s, some parent, children⟩ = true then some true
      else d.hasOwn[id]? := by
    intro id
    rw [writeSlot_eq hn]
    simp only
    split
    · rename_i hw
      rw [Array.getElem?_setIfInBounds]
      by_cases hid : first = id
      · rw [if_pos hid, if_pos (by omega), if_pos ⟨hid.symm, hw⟩]
      · rw [if_neg hid, if_neg (fun h => hid h.1.symm)]
    · rename_i hw
      rw [if_neg (fun h => hw h.2)]
  refine ⟨⟨?_, ?_, ?_, ?_⟩, ?_⟩
  · rw [writeSlot_eq hn]
    simp [Closing.count, String.append_assoc]
  · rw [writeSlot_eq hn]
    simp only
    split <;> simp
  · intro id hid
    rw [hmark, if_neg (by omega)]
  · intro id hid
    rw [hmark, if_neg (by omega)]
    exact hfresh id (by omega)
  · rw [hmark]
    cases hw : c.writesOwn ⟨conn, s, some parent, children⟩ with
    | true => simp
    | false => simpa using hfresh first (Nat.le_refl first)

/-- Writing the plan of a forest adds its groups in brackets.  `begun` says whether anything of
the parent stands in front of the first group. -/
theorem foldl_plan (ht : c.tree.Ascending) {f : Forest} {parent first : Nat}
    (h : c.tree.Carries parent first f) (hp : parent < first) (d : Draft) (begun : Bool)
    (hsize : first + f.size ≤ d.hasOwn.size)
    (hfresh : ∀ id : Nat, first ≤ id → d.hasOwn[id]?.getD false = false)
    (hhead : ∀ top : Nat, (c.tree.node parent).children.head? = some top → top ≤ first)
    (hbegun : f ≠ .nil → (d.hasOwn[parent]?.getD false ||
      (c.tree.node parent).children.head? != some first) = begun) :
    Writes d ((f.plan first).foldl c.writeSlot d)
      (followed (separator (c.tree.node parent).connective) begun
        ((f.tops first).map fun id => bracketed (c.nestedText id))) first (first + f.size) := by
  induction f generalizing parent first d begun with
  | nil =>
    refine ⟨?_, rfl, fun _ _ => rfl, hfresh⟩
    rw [tops, List.map_nil, followed, String.append_empty]
    rfl
  | cons conn s below after ihb iha =>
    obtain ⟨hget, hbelow, hafter⟩ := h
    have hslots : ∀ slot ∈ (⟨first, .none⟩ :: below.plan (first + 1) : List Slot),
        (c.tree.node slot.group).parent.isSome = true := by
      refine isSome_parent_of_groups (f := .cons conn s below .nil) ⟨hget, hbelow, trivial⟩ ?_
      rw [List.map_cons, groups_plan, range'_size_cons, Forest.size, List.range'_zero,
        List.append_nil]
    have hnode := Tree.node_eq_of_get? hget
    rw [Forest.size] at hsize
    -- the group itself
    obtain ⟨hw₁, hown⟩ := writes_slot hnode rfl (by omega) hfresh
    generalize hd₁ : c.writeSlot d ⟨first, .none⟩ = d₁ at hw₁ hown
    -- the groups below it
    have hheadBelow : ∀ top : Nat, (c.tree.node first).children.head? = some top →
        top ≤ first + 1 := by
      intro top htop
      rw [hnode] at htop
      exact Nat.le_of_eq (head?_tops htop)
    have hbegunBelow : below ≠ .nil → (d₁.hasOwn[first]?.getD false ||
        (c.tree.node first).children.head? != some (first + 1)) =
          c.writesOwn ⟨conn, s, some parent, below.tops (first + 1)⟩ := by
      intro hne
      rw [hown, hnode, head?_tops_of_ne_nil hne, bne_self_eq_false, Bool.or_false]
    have hw₂ := ihb hbelow (Nat.lt_succ_self first) d₁ _ (by rw [hw₁.size]; omega) hw₁.fresh
      hheadBelow hbegunBelow
    generalize hd₂ : (below.plan (first + 1)).foldl c.writeSlot d₁ = d₂ at hw₂
    -- the groups after it, which always have something in front
    have hheadAfter : ∀ top : Nat, (c.tree.node parent).children.head? = some top →
        top ≤ first + 1 + below.size := by
      intro top htop
      have hle := hhead top htop
      omega
    have hbegunAfter : after ≠ .nil → (d₂.hasOwn[parent]?.getD false ||
        (c.tree.node parent).children.head? != some (first + 1 + below.size)) = true := by
      intro _
      cases htop : (c.tree.node parent).children.head? with
      | none => simp
      | some top =>
        have hle := hhead top htop
        have hne : top ≠ first + 1 + below.size := Nat.ne_of_lt (by omega)
        simp [hne]
    have hsizeAfter : first + 1 + below.size + after.size ≤ d₂.hasOwn.size := by
      rw [hw₂.size, hw₁.size]
      omega
    have hw₃ := iha hafter (by omega) { d₂ with text := d₂.text ++ ")" } true hsizeAfter hw₂.fresh
      hheadAfter hbegunAfter
    have hlead : c.leadText d.hasOwn first parent =
        if begun then separator (c.tree.node parent).connective else "" := by
      rw [leadText, hbegun (by simp)]
    have hplan : (plan first (.cons conn s below after)).foldl c.writeSlot d =
        (after.plan (first + 1 + below.size)).foldl c.writeSlot
          { d₂ with text := d₂.text ++ ")" } := by
      rw [plan, List.foldl_append, foldl_closeLast (List.cons_ne_nil _ _) hslots, List.foldl_cons,
        hd₁, hd₂]
    rw [hplan, Forest.size]
    refine ⟨?_, ?_, ?_, ?_⟩
    · rw [hw₃.text, hw₂.text, hw₁.text, hlead, hnode, tops, List.map_cons, followed, bracketed,
        nestedText_eq_followed ht hnode]
      simp only [String.append_assoc]
    · rw [hw₃.size, hw₂.size, hw₁.size]
    · intro id hid
      rw [hw₃.kept id (by omega), hw₂.kept id (by omega), hw₁.kept id hid]
    · intro id hid
      exact hw₃.fresh id (by omega)

/-- The loop collects the parameters slot by slot. -/
theorem params_foldl {slots : List Slot}
    (hp : ∀ slot ∈ slots, (c.tree.node slot.group).parent.isSome = true) (d : Draft) :
    (slots.foldl c.writeSlot d).params.toList =
      d.params.toList ++ (slots.map Slot.group).flatMap fun id => c.ownParams (c.tree.node id) := by
  induction slots generalizing d with
  | nil => simp
  | cons slot slots ih =>
    rw [List.forall_mem_cons] at hp
    obtain ⟨parent, hparent⟩ := Option.isSome_iff_exists.1 hp.1
    have hparams : (c.writeSlot d slot).params =
        d.params ++ c.ownParams (c.tree.node slot.group) := by
      rw [writeSlot, hparent]
    rw [List.foldl_cons, ih hp.2, hparams, List.map_cons, List.flatMap_cons,
      Array.toList_appendList, List.append_assoc]

/-! ## The clause -/

/-- Before the loop only the root can be marked. -/
theorem hasOwn_rootDraft (c : Criteria) (id : Nat) :
    c.rootDraft.hasOwn[id]?.getD false =
      (decide (id = Tree.root) && c.writesOwn (c.tree.node Tree.root)) := by
  rw [rootDraft, Array.getElem?_append, Tree.root]
  cases id with
  | zero => simp
  | succ id =>
    rw [if_neg (by simp), Array.getElem?_replicate]
    split <;> simp

variable {s : PredicateSet} {f : Forest}

theorem Lays.text_clause (h : c.Lays s f) : c.clause.text = c.nestedText Tree.root := by
  have hsize : 1 + f.size ≤ c.rootDraft.hasOwn.size := by
    rw [rootDraft, Array.size_append, Array.size_replicate, h.size]
    simp only [List.size_toArray, List.length_singleton]
    omega
  have hfresh : ∀ id : Nat, 1 ≤ id → c.rootDraft.hasOwn[id]?.getD false = false := by
    intro id hid
    have hne : id ≠ Tree.root := Nat.ne_of_gt hid
    rw [hasOwn_rootDraft, decide_eq_false hne, Bool.false_and]
  have hhead : ∀ top : Nat, (c.tree.node Tree.root).children.head? = some top → top ≤ 1 := by
    intro top htop
    rw [h.node_root] at htop
    exact Nat.le_of_eq (head?_tops htop)
  have hbegun : f ≠ .nil → (c.rootDraft.hasOwn[Tree.root]?.getD false ||
      (c.tree.node Tree.root).children.head? != some 1) =
        c.writesOwn (c.tree.node Tree.root) := by
    intro hne
    rw [hasOwn_rootDraft, decide_eq_true rfl, Bool.true_and, h.node_root, head?_tops_of_ne_nil hne,
      bne_self_eq_false, Bool.or_false]
  have hw := foldl_plan h.ascending h.carries Nat.zero_lt_one c.rootDraft _ hsize hfresh hhead
    hbegun
  rw [clause, h.slots, nestedText_eq_followed h.ascending rfl]
  simp only
  rw [hw.text, rootDraft, h.node_root]

theorem Lays.params_clause (h : c.Lays s f) :
    c.clause.params = c.tree.preorder.flatMap fun id => (c.parts id).flatMap Condition.params := by
  have hparts : ∀ id, c.ownParams (c.tree.node id) = (c.parts id).flatMap Condition.params := by
    intro id
    rw [ownParams, paramsOfAll_eq_flatMap, ownConditions_eq, parts]
  have hslots := isSome_parent_of_groups h.carries (groups_plan 1 f)
  rw [clause, h.slots, h.preorder, h.size, List.range_eq_range', List.range'_succ,
    List.flatMap_cons]
  simp only
  rw [params_foldl hslots, groups_plan, rootDraft, ← hparts]
  simp only [hparts]
  rfl

/-- The clause of a reachable query is its text by recursion over the groups: the filters of a
group in their order and then its children in brackets, joined by the connective of the group.
The parameters are those of the filters, over the groups in pre-order. -/
theorem clause_nested {q : Query} (hq : q.Reachable) {identity : IdentityResolver}
    {config : Config} (hc : q.compile identity config = .ok c) :
    (∀ id : NodeId, c.nestedText id = joined (separator (c.tree.node id).connective)
      ((c.parts id).map Condition.text ++
        (c.tree.node id).children.map fun child => "(" ++ c.nestedText child ++ ")")) ∧
      c.clause.text = c.nestedText Tree.root ∧
        (∀ id : NodeId, c.tree.subtree id =
          id :: (c.tree.node id).children.flatMap c.tree.subtree) ∧
          c.clause.params =
            (c.tree.subtree Tree.root).flatMap fun id =>
              (c.parts id).flatMap Condition.params := by
  obtain ⟨s, f, h⟩ := hq.lays hc
  exact ⟨nestedText_eq h.ascending, h.text_clause, Tree.subtree_eq h.ascending, h.params_clause⟩

/-- A group within a group within the root, all with filters of their own. -/
theorem clause_nested_built :
    ∃ (q : Query) (c : Criteria), q.Reachable ∧ q.compile (fun _ => []) {} = .ok c ∧
      c.clause.text = c.nestedText Tree.root ∧
        c.nestedText Tree.root =
          "RES.OWNER_ = ? AND (RES.NAME_ = ? OR RES.NAME_ = ? OR (RES.ASSIGNEE_ IS NULL))" := by
  let q := Query.built [.setTerm .owner (.text "ada") rfl, .openGroup .or,
    .setTerm .name (.text "check") rfl, .setTerm .name (.text "sign") rfl, .openGroup .and,
    .setFlag .unassigned, .closeGroup .and, .closeGroup .or]
  have htext : (q.compile (fun _ => []) {}).toOption.map (·.clause.text) =
      some "RES.OWNER_ = ? AND (RES.NAME_ = ? OR RES.NAME_ = ? OR (RES.ASSIGNEE_ IS NULL))" := by
    decide +kernel
  have hq : q.Reachable := Query.reachable_built _
  cases hc : q.compile (fun _ => []) {} with
  | error e =>
    rw [hc] at htext
    cases htext
  | ok c =>
    rw [hc] at htext
    obtain ⟨-, hroot, -⟩ := clause_nested hq hc
    refine ⟨q, c, hq, hc, hroot, ?_⟩
    rw [← hroot]
    exact Option.some.inj htext

end Criteria

end Worklist
