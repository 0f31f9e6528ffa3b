import Worklist.Proofs.Tree.Bounds

/-!
# Depth-first search

A search from the children of the root goes from left to right and from every group to its children
before it goes on, and it never enters a group twice.  So it ends on any tree, with shared groups or
with groups that lead back to themselves.

* `Tree.FirstVisits` is the search, by recursion over what is visited below a group and after it.
  `FirstVisits.unique` says that there is only one order.
* `FirstVisits.split` cuts a search in two, and `FirstVisits.enter` is the rule of a search that
  keeps one list of everything that is left to do.
* `FirstVisits.nodup`, `FirstVisits.closed` and `FirstVisits.reaches` say what is visited, and
  `FirstVisits.mem_iff` that this is all that the root leads to.
-/

namespace Worklist.Tree

variable {t : Tree} {seen ids more order order' : List NodeId} {id : NodeId}

/-- A depth-first search over `ids` from left to right that has been at `seen`, the latest first,
comes to `order` for the first time, in this order. -/
inductive FirstVisits (t : Tree) : List NodeId → List NodeId → List NodeId → Prop where
  | done {seen : List NodeId} : FirstVisits t seen [] []
  | again {seen ids order : List NodeId} {id : NodeId} (hid : id ∈ seen)
      (h : FirstVisits t seen ids order) : FirstVisits t seen (id :: ids) order
  | first {seen ids below after : List NodeId} {id : NodeId} (hid : id ∉ seen)
      (hbelow : FirstVisits t (id :: seen) (t.node id).children below)
      (hafter : FirstVisits t (below.reverse ++ id :: seen) ids after) :
      FirstVisits t seen (id :: ids) (id :: (below ++ after))

namespace FirstVisits

theorem unique (h : t.FirstVisits seen ids order) (h' : t.FirstVisits seen ids order') :
    order = order' := by
  induction h generalizing order' with
  | done =>
    cases h'
    rfl
  | again hid _ ih =>
    cases h' with
    | again _ h' => exact ih h'
    | first hid' => exact absurd hid hid'
  | first hid _ _ ihbelow ihafter =>
    cases h' with
    | again hid' => exact absurd hid' hid
    | first _ hbelow' hafter' =>
      obtain rfl := ihbelow hbelow'
      rw [ihafter hafter']

/-! ## One list of what is left to do -/

/-- A search over two lists is one over the first list and then one over the second. -/
theorem split (h : t.FirstVisits seen (ids ++ more) order) :
    ∃ front back, order = front ++ back ∧ t.FirstVisits seen ids front ∧
      t.FirstVisits (front.reverse ++ seen) more back := by
  generalize hall : ids ++ more = all at h
  induction h generalizing ids with
  | done =>
    obtain ⟨rfl, rfl⟩ := List.append_eq_nil_iff.1 hall
    exact ⟨[], [], rfl, .done, .done⟩
  | again hid h ih =>
    cases ids with
    | nil =>
      subst hall
      exact ⟨[], _, rfl, .done, .again hid h⟩
    | cons _ ids =>
      obtain ⟨rfl, hrest⟩ := List.cons.inj hall
      obtain ⟨front, back, rfl, hfront, hback⟩ := ih hrest
      exact ⟨front, back, rfl, .again hid hfront, hback⟩
  | @first _ _ below after id hid hbelow hafter _ ih =>
    cases ids with
    | nil =>
      subst hall
      exact ⟨[], _, rfl, .done, .first hid hbelow hafter⟩
    | cons _ ids =>
      obtain ⟨rfl, hrest⟩ := List.cons.inj hall
      obtain ⟨front, back, rfl, hfront, hback⟩ := ih hrest
      refine ⟨_ :: (below ++ front), back, by simp, .first hid hbelow hfront, ?_⟩
      simpa using hback

/-- A group that is entered puts its children in front of what is left. -/
theorem enter (hid : id ∉ seen) (h : t.FirstVisits (id :: seen) ((t.node id).children ++ ids) order) :
    t.FirstVisits seen (id :: ids) (id :: order) := by
  obtain ⟨below, after, rfl, hbelow, hafter⟩ := h.split
  exact .first hid hbelow hafter

/-! ## What is visited -/

/-- Nothing is visited twice. -/
theorem nodup (h : t.FirstVisits seen ids order) : order.Nodup ∧ ∀ id ∈ order, id ∉ seen := by
  induction h with
  | done => exact ⟨List.nodup_nil, List.forall_mem_nil _⟩
  | again _ _ ih => exact ih
  | @first seen _ below after id hid _ _ ihbelow ihafter =>
    obtain ⟨hbelow, hbelowNew⟩ := ihbelow
    obtain ⟨hafter, hafterNew⟩ := ihafter
    simp only [List.mem_cons, not_or, List.mem_append, List.mem_reverse] at hbelowNew hafterNew
    refine ⟨List.nodup_cons.2 ⟨?_, List.nodup_append.2 ⟨hbelow, hafter, ?_⟩⟩, ?_⟩
    · intro hmem
      rcases List.mem_append.1 hmem with hmem | hmem
      · exact (hbelowNew id hmem).1 rfl
      · exact (hafterNew id hmem).2.1 rfl
    · rintro x hx _ hx' rfl
      exact (hafterNew x hx').1 hx
    · intro x hx
      rw [List.mem_cons, List.mem_append] at hx
      rcases hx with rfl | hx | hx
      · exact hid
      · exact (hbelowNew x hx).2
      · exact (hafterNew x hx).2.2

/-- The search leaves nothing out: what it starts from and all children of what it visits. -/
theorem closed (h : t.FirstVisits seen ids order) :
    (∀ id ∈ ids, id ∈ order ++ seen) ∧
      ∀ id ∈ order, ∀ child ∈ (t.node id).children, child ∈ order ++ seen := by
  induction h with
  | done => exact ⟨List.forall_mem_nil _, List.forall_mem_nil _⟩
  | again hid _ ih =>
    exact ⟨List.forall_mem_cons.2 ⟨List.mem_append_right _ hid, ih.1⟩, ih.2⟩
  | @first seen ids below after id _ _ _ ihbelow ihafter =>
    obtain ⟨hchildren, hbelow⟩ := ihbelow
    obtain ⟨hids, hafter⟩ := ihafter
    -- what either part of the search reaches is in the whole or was seen before
    have hfront : ∀ x ∈ below ++ id :: seen, x ∈ id :: (below ++ after) ++ seen := by grind
    have hback : ∀ x ∈ after ++ (below.reverse ++ id :: seen),
        x ∈ id :: (below ++ after) ++ seen := by grind
    refine ⟨List.forall_mem_cons.2 ⟨List.mem_cons_self, fun x hx => hback x (hids x hx)⟩, ?_⟩
    intro x hx child hchild
    rw [List.mem_cons, List.mem_append] at hx
    rcases hx with rfl | hx | hx
    · exact hfront child (hchildren child hchild)
    · exact hfront child (hbelow x hx child hchild)
    · exact hback child (hafter x hx child hchild)

theorem reaches (h : t.FirstVisits seen ids order) (hids : ∀ id ∈ ids, t.Reaches id) :
    ∀ id ∈ order, t.Reaches id := by
  induction h with
  | done => exact List.forall_mem_nil _
  | again _ _ ih => exact ih (List.forall_mem_cons.1 hids).2
  | first _ _ _ ihbelow ihafter =>
    obtain ⟨hid, hids⟩ := List.forall_mem_cons.1 hids
    refine List.forall_mem_cons.2 ⟨hid, List.forall_mem_append.2 ⟨?_, ihafter hids⟩⟩
    exact ihbelow fun _ hchild => .next hid hchild

/-- A search from the children of the root visits what the root leads to. -/
theorem mem_iff (h : t.FirstVisits [] (t.node root).children order) : id ∈ order ↔ t.Reaches id := by
  obtain ⟨hstart, hnext⟩ := h.closed
  rw [List.append_nil] at hstart hnext
  refine ⟨h.reaches (fun _ => .top) id, fun hid => ?_⟩
  induction hid with
  | top hid => exact hstart _ hid
  | next _ hchild ih => exact hnext _ ih _ hchild

end FirstVisits

end Worklist.Tree
