import Worklist.Tree

/-!
# Forests and their layout

A tree of groups keeps its nodes in an array.  A `Forest` is the same data
without positions: groups side by side, each with the forest below it.  The
trees that queries build are the layouts of forests, in which every group
stands in front of the groups below it and these in front of the groups
after it.

There are four groups.

* Forests as lists.  `append` puts one forest behind another, and `All` says
  that every group of a forest has a property.
* The layout.  `tops` gives the positions of the outermost groups, `nodes`
  the nodes of a forest from a position on, and `Tree.ofForest` the tree with
  a given root.
* The view.  `Tree.Carries` says that a tree holds the nodes of a forest from
  a position on.  It is a recursion on the forest, so that an induction on
  the forest has the node of each group at hand.
* Positions.  `Carries.node_spec` says what stands at a position of a carried
  forest.  `Tree.Ascending` says that children stand behind their parents,
  which makes the tree a proper tree; `Tree.Ascending.induction` is the
  induction from the children to the parents.
-/

namespace Worklist

/-- Groups side by side, each with the groups below it. -/
inductive Forest where
  | nil
  | cons (connective : Connective) (predicates : PredicateSet) (below after : Forest)

namespace Forest

/-! ## Forests as lists -/

/-- The number of groups. -/
def size : Forest → Nat
  | nil => 0
  | cons _ _ below after => 1 + below.size + after.size

/-- The groups of the first forest in front of those of the second. -/
def append : Forest → Forest → Forest
  | nil, g => g
  | cons c s below after, g => cons c s below (after.append g)

instance : Append Forest := ⟨append⟩

@[simp] theorem nil_append (g : Forest) : nil ++ g = g := rfl

@[simp] theorem cons_append (c : Connective) (s : PredicateSet) (below after g : Forest) :
    cons c s below after ++ g = cons c s below (after ++ g) := rfl

@[simp] theorem append_nil (f : Forest) : f ++ nil = f := by
  induction f with
  | nil => rfl
  | cons c s below after _ ih => rw [cons_append, ih]

theorem append_assoc (f g h : Forest) : f ++ g ++ h = f ++ (g ++ h) := by
  induction f with
  | nil => rfl
  | cons c s below after _ ih => rw [cons_append, cons_append, cons_append, ih]

theorem size_append (f g : Forest) : (f ++ g).size = f.size + g.size := by
  induction f with
  | nil => rw [nil_append, size, Nat.zero_add]
  | cons c s below after _ ih =>
    rw [cons_append, size, size, ih]
    omega

/-- Every group has a property of its connective and its filters. -/
def All (P : Connective → PredicateSet → Prop) : Forest → Prop
  | nil => True
  | cons c s below after => P c s ∧ below.All P ∧ after.All P

theorem all_append {P : Connective → PredicateSet → Prop} {f g : Forest} :
    (f ++ g).All P ↔ f.All P ∧ g.All P := by
  induction f with
  | nil => simp [All]
  | cons c s below after _ ih => simp only [cons_append, All, ih, and_assoc]

/-! ## The layout -/

/-- The positions of the outermost groups of a forest whose nodes start at `first`. -/
def tops (first : Nat) : Forest → List NodeId
  | nil => []
  | cons _ _ below after => first :: after.tops (first + 1 + below.size)

/-- The nodes of a forest below `parent`, the first at position `first`. -/
def nodes (parent first : Nat) : Forest → List Node
  | nil => []
  | cons c s below after =>
    ⟨c, s, some parent, below.tops (first + 1)⟩ ::
      (below.nodes first (first + 1) ++ after.nodes parent (first + 1 + below.size))

@[simp] theorem nodes_length (parent first : Nat) (f : Forest) :
    (f.nodes parent first).length = f.size := by
  induction f generalizing parent first with
  | nil => rfl
  | cons c s below after ihb iha =>
    rw [nodes, List.length_cons, List.length_append, ihb, iha, size]
    omega

theorem tops_append (first : Nat) (f g : Forest) :
    (f ++ g).tops first = f.tops first ++ g.tops (first + f.size) := by
  induction f generalizing first with
  | nil => rfl
  | cons c s below after _ ih =>
    have hnext : first + 1 + below.size + after.size = first + (1 + below.size + after.size) := by
      omega
    rw [cons_append, tops, tops, ih, size, hnext, List.cons_append]

theorem nodes_append (parent first : Nat) (f g : Forest) :
    (f ++ g).nodes parent first =
      f.nodes parent first ++ g.nodes parent (first + f.size) := by
  induction f generalizing first with
  | nil => rfl
  | cons c s below after _ ih =>
    have hnext : first + 1 + below.size + after.size = first + (1 + below.size + after.size) := by
      omega
    rw [cons_append, nodes, nodes, ih, size, hnext, List.cons_append, List.append_assoc]

/-- The outermost groups stand among the nodes of the forest. -/
theorem mem_tops {first id : Nat} {f : Forest} (h : id ∈ f.tops first) :
    first ≤ id ∧ id < first + f.size := by
  induction f generalizing first with
  | nil => simp [tops] at h
  | cons c s below after _ ih =>
    rw [tops, List.mem_cons] at h
    rw [size]
    rcases h with rfl | h
    · omega
    · have := ih h
      omega

/-- The positions of a forest: the first group, the groups below it, the groups after it. -/
theorem range'_size_cons (first : Nat) (c : Connective) (s : PredicateSet)
    (below after : Forest) :
    List.range' first (cons c s below after).size =
      first :: (List.range' (first + 1) below.size ++
        List.range' (first + 1 + below.size) after.size) := by
  rw [size, List.range'_append_1, Nat.add_assoc, Nat.add_comm 1, List.range'_succ]

/-- A forest that is not empty starts with its first outermost group. -/
theorem head?_tops {first top : Nat} {f : Forest} (h : (f.tops first).head? = some top) :
    top = first := by
  cases f with
  | nil => simp [tops] at h
  | cons c s below after => simpa [tops] using h.symm

theorem head?_tops_of_ne_nil {first : Nat} {f : Forest} (h : f ≠ nil) :
    (f.tops first).head? = some first := by
  cases f with
  | nil => exact absurd rfl h
  | cons c s below after => rfl

theorem isEmpty_tops (first : Nat) (f : Forest) :
    (f.tops first).isEmpty = (f.tops 0).isEmpty := by
  cases f <;> rfl

/-- No group lacks both filters and children. -/
def isFull : Forest → Bool
  | nil => true
  | cons _ s below after =>
    !((below.tops 0).isEmpty && s.isEmpty) && below.isFull && after.isFull

end Forest

namespace Tree

/-- The tree with a root of given filters above a forest. -/
def ofForest (s : PredicateSet) (f : Forest) : Tree :=
  ⟨(⟨.and, s, none, f.tops 1⟩ :: f.nodes root 1).toArray⟩

@[simp] theorem size_ofForest (s : PredicateSet) (f : Forest) :
    (ofForest s f).size = f.size + 1 := by
  simp [size, ofForest]

@[simp] theorem node_root_ofForest (s : PredicateSet) (f : Forest) :
    (ofForest s f).node root = ⟨.and, s, none, f.tops 1⟩ := rfl

/-! ## The view -/

/-- The tree holds the nodes of a forest below `parent`, from position `first` on. -/
def Carries (t : Tree) (parent first : Nat) : Forest → Prop
  | .nil => True
  | .cons c s below after =>
    t.get? first = some ⟨c, s, some parent, below.tops (first + 1)⟩ ∧
      t.Carries first (first + 1) below ∧ t.Carries parent (first + 1 + below.size) after

theorem node_eq_of_get? {t : Tree} {id : Nat} {n : Node} (h : t.get? id = some n) :
    t.node id = n := by
  rw [get?] at h
  rw [node, h, Option.getD_some]

/-- A tree whose array holds the nodes of a forest carries the forest. -/
theorem carries_of_toList {t : Tree} (f : Forest) (parent : Nat) (before behind : List Node)
    (h : t.nodes.toList = before ++ f.nodes parent before.length ++ behind) :
    t.Carries parent before.length f := by
  induction f generalizing parent before behind with
  | nil => trivial
  | cons c s below after ihb iha =>
    rw [Forest.nodes] at h
    refine ⟨?_, ?_, ?_⟩
    · rw [get?, ← Array.getElem?_toList, h]
      simp
    · have hb := ihb before.length (before ++ [⟨c, s, some parent, below.tops (before.length + 1)⟩])
        (after.nodes parent (before.length + 1 + below.size) ++ behind) (by simpa using h)
      simpa using hb
    · have ha := iha parent (before ++ (⟨c, s, some parent, below.tops (before.length + 1)⟩ ::
          below.nodes before.length (before.length + 1))) behind
        (by simpa [Nat.add_assoc, Nat.add_comm 1] using h)
      simpa [Nat.add_assoc, Nat.add_comm 1] using ha

theorem carries_ofForest (s : PredicateSet) (f : Forest) : (ofForest s f).Carries root 1 f :=
  carries_of_toList f root [⟨.and, s, none, f.tops 1⟩] [] (by simp [ofForest])

/-! ## Positions -/

/-- Every child stands behind its parent and within the array. -/
def Ascending (t : Tree) : Prop :=
  ∀ id child : Nat, child ∈ (t.node id).children → id < child ∧ child < t.size

/-- What stands at a position of a carried forest. -/
theorem Carries.node_spec {t : Tree} {f : Forest} {parent first : Nat}
    (h : t.Carries parent first f) {id : Nat} (hlo : first ≤ id) (hhi : id < first + f.size) :
    ∃ (c : Connective) (s : PredicateSet) (above : Nat) (below : Forest),
      t.node id = ⟨c, s, some above, below.tops (id + 1)⟩ ∧
        id + 1 + below.size ≤ first + f.size ∧ (∀ P, f.All P → P c s) ∧
          (f.isFull = true → (below.tops (id + 1)).isEmpty = false ∨ s.isEmpty = false) := by
  induction f generalizing parent first with
  | nil => exact absurd hhi (by rw [Forest.size]; omega)
  | cons c s below after ihb iha =>
    obtain ⟨hnode, hbelow, hafter⟩ := h
    rw [Forest.size] at hhi ⊢
    simp only [Forest.All, Forest.isFull, Bool.and_eq_true]
    rcases Nat.lt_or_ge id (first + 1) with hid | hid
    · obtain rfl : id = first := by omega
      refine ⟨c, s, parent, below, node_eq_of_get? hnode, by omega, fun P hP => hP.1, ?_⟩
      intro hfull
      rw [Forest.isEmpty_tops]
      simpa [Bool.and_eq_false_iff] using hfull.1.1
    · rcases Nat.lt_or_ge id (first + 1 + below.size) with hid' | hid'
      · obtain ⟨c', s', above, below', hat, hsize, hP, hfull⟩ := ihb hbelow hid hid'
        exact ⟨c', s', above, below', hat, by omega, fun P h => hP P h.2.1,
          fun h => hfull h.1.2⟩
      · obtain ⟨c', s', above, below', hat, hsize, hP, hfull⟩ := iha hafter hid' (by omega)
        exact ⟨c', s', above, below', hat, by omega, fun P h => hP P h.2.2,
          fun h => hfull h.2⟩

/-- The children of a group of a carried forest stand behind it and within the forest. -/
theorem Carries.mem_children {t : Tree} {f : Forest} {parent first : Nat}
    (h : t.Carries parent first f) {id child : Nat} (hlo : first ≤ id)
    (hhi : id < first + f.size) (hc : child ∈ (t.node id).children) :
    id < child ∧ child < first + f.size := by
  obtain ⟨c, s, above, below, hat, hsize, -, -⟩ := h.node_spec hlo hhi
  rw [hat] at hc
  have := Forest.mem_tops hc
  omega

theorem ascending_ofForest (s : PredicateSet) (f : Forest) : (ofForest s f).Ascending := by
  intro id child hc
  rw [size_ofForest]
  rcases Nat.eq_zero_or_pos id with rfl | hpos
  · have := Forest.mem_tops (show child ∈ f.tops 1 from hc)
    omega
  · rcases Nat.lt_or_ge id (f.size + 1) with hid | hid
    · have := (carries_ofForest s f).mem_children hpos (by omega) hc
      omega
    · have hnone : (ofForest s f).nodes[id]? = none := by
        rw [Array.getElem?_eq_none_iff, ← size, size_ofForest]
        exact hid
      rw [node, hnone] at hc
      simp [default, Node.new] at hc

/-- What passes from the children of every group to the group holds of every group. -/
theorem Ascending.induction {t : Tree} (ht : t.Ascending) {P : Nat → Prop}
    (step : ∀ id, (∀ child ∈ (t.node id).children, P child) → P id) (id : Nat) : P id := by
  induction hd : t.size - id using Nat.strongRecOn generalizing id with
  | _ d ih =>
    refine step id fun child hc => ?_
    obtain ⟨hlt, hsize⟩ := ht id child hc
    exact ih (t.size - child) (by omega) child rfl

end Tree

end Worklist
