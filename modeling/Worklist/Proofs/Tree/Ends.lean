import Worklist.Proofs.Tree.Fold
import Worklist.Proofs.Tree.Plan

/-!
# The last groups of subtrees

A bracket closes behind the last group of the subtree that it encloses.

* `Forest.ends` lists for each group the last group below it, and `plan_eq` says that as many
  brackets close behind a group as it is the end of.
* `Carries.mem_ends` says that the ends are the groups without children.
* `Carries.count_ends` reads the ends off the pre-order of each subtree.
-/

namespace Worklist

open ClosingPlan

/-! ## Counts as closings -/

namespace Closing

/-- What closes a number of brackets. -/
def ofCount : Nat → Closing
  | 0 => none
  | n + 1 => parens (n + 1)

theorem count_ofCount (n : Nat) : (ofCount n).count = n := by
  cases n <;> rfl

theorem bump_ofCount (n : Nat) : (ofCount n).bump = ofCount (n + 1) := by
  rw [bump, count_ofCount, ofCount]

theorem ofCount_eq_none {n : Nat} : ofCount n = none ↔ n = 0 := by
  cases n <;> simp [ofCount]

end Closing

namespace Forest

/-! ## Ends -/

/-- For each group in order, the last position below it. -/
def ends (first : Nat) : Forest → List NodeId
  | nil => []
  | cons _ _ below after =>
    (first + below.size) :: (below.ends (first + 1) ++ after.ends (first + 1 + below.size))

theorem bounds_of_mem_ends {f : Forest} {first id : Nat} (h : id ∈ f.ends first) :
    first ≤ id ∧ id < first + f.size := by
  induction f generalizing first with
  | nil => cases h
  | cons c s below after ihb iha =>
    rw [ends, List.mem_cons, List.mem_append] at h
    rw [size]
    rcases h with rfl | h | h
    · omega
    · have hid := ihb h
      omega
    · have hid := iha h
      omega

theorem count_ends_of_lt {f : Forest} {first id : Nat} (h : id < first) :
    (f.ends first).count id = 0 := by
  refine List.count_eq_zero.2 fun hmem => ?_
  have hid := bounds_of_mem_ends hmem
  omega

theorem count_ends_of_ge {f : Forest} {first id : Nat} (h : first + f.size ≤ id) :
    (f.ends first).count id = 0 := by
  refine List.count_eq_zero.2 fun hmem => ?_
  have hid := bounds_of_mem_ends hmem
  omega

variable {c : Connective} {s : PredicateSet} {below after : Forest} {first id : Nat}

/-- Up to the last group below the first one, only the first group adds an end. -/
theorem count_ends_below (h : id < first + 1 + below.size) :
    ((cons c s below after).ends first).count id =
      (below.ends (first + 1)).count id + if first + below.size = id then 1 else 0 := by
  rw [ends, List.count_cons, List.count_append, count_ends_of_lt h, Nat.add_zero]
  simp only [beq_iff_eq]

theorem count_ends_after (h : first + 1 + below.size ≤ id) :
    ((cons c s below after).ends first).count id =
      (after.ends (first + 1 + below.size)).count id := by
  have hne : first + below.size ≠ id := by omega
  rw [ends, List.count_cons, List.count_append, count_ends_of_ge h, Nat.zero_add,
    beq_eq_false_iff_ne.2 hne]
  rfl

theorem tops_eq_nil {f : Forest} {first : Nat} : f.tops first = [] ↔ f.size = 0 := by
  cases f with
  | nil => exact ⟨fun _ => rfl, fun _ => rfl⟩
  | cons c s below after =>
    rw [tops, size]
    constructor
    · intro h
      cases h
    · omega

theorem closeLast_append (slots : List Slot) (slot : Slot) :
    closeLast (slots ++ [slot]) = slots ++ [{ slot with closing := slot.closing.bump }] := by
  rw [closeLast, List.reverse_append, List.reverse_singleton, List.singleton_append, bumpLast,
    List.reverse_cons, List.reverse_reverse]

/-- One more bracket behind the last of some slots in a row. -/
theorem closeLast_map (count : Nat → Nat) (first n : Nat) :
    closeLast ((List.range' first (n + 1)).map fun id => ⟨id, .ofCount (count id)⟩) =
      (List.range' first (n + 1)).map fun id =>
        ⟨id, .ofCount (count id + if first + n = id then 1 else 0)⟩ := by
  rw [List.range'_1_concat, List.map_append, List.map_append, List.map_singleton,
    List.map_singleton, closeLast_append, Closing.bump_ofCount, if_pos rfl]
  congr 1
  refine List.map_congr_left fun id hid => ?_
  rw [List.mem_range'_1] at hid
  rw [if_neg (by omega), Nat.add_zero]

/-- As many brackets close behind a group as it is the end of. -/
theorem plan_eq (f : Forest) (first : Nat) :
    f.plan first =
      (List.range' first f.size).map fun id => ⟨id, .ofCount ((f.ends first).count id)⟩ := by
  induction f generalizing first with
  | nil => rfl
  | cons c s below after ihb iha =>
    have hslots : (⟨first, .none⟩ :: below.plan (first + 1) : List Slot) =
        (List.range' first (below.size + 1)).map fun id =>
          ⟨id, .ofCount ((below.ends (first + 1)).count id)⟩ := by
      rw [List.range'_succ, List.map_cons, count_ends_of_lt (Nat.lt_succ_self first), ihb]
      rfl
    -- the bracket of the first group closes behind the last group below it
    have hbelow : ((List.range' first (below.size + 1)).map fun id => (⟨id, .ofCount
          ((below.ends (first + 1)).count id + if first + below.size = id then 1 else 0)⟩ : Slot)) =
        (List.range' first (below.size + 1)).map fun id =>
          ⟨id, .ofCount (((cons c s below after).ends first).count id)⟩ := by
      refine List.map_congr_left fun id hid => ?_
      rw [List.mem_range'_1] at hid
      rw [count_ends_below (by omega)]
    have hafter : after.plan (first + 1 + below.size) =
        (List.range' (first + 1 + below.size) after.size).map fun id =>
          ⟨id, .ofCount (((cons c s below after).ends first).count id)⟩ := by
      rw [iha]
      refine List.map_congr_left fun id hid => ?_
      rw [List.mem_range'_1] at hid
      rw [count_ends_after hid.1]
    rw [plan, hslots, closeLast_map, hbelow, hafter, ← List.map_append, range'_size_cons,
      List.range'_succ, List.cons_append]

end Forest

namespace Tree

open Forest

variable {t : Tree} {f : Forest} {parent first : Nat}

/-- The ends of a carried forest are its groups without children. -/
theorem Carries.mem_ends (h : t.Carries parent first f) :
    ∀ id ∈ List.range' first f.size, id ∈ f.ends first ↔ (t.node id).children = [] := by
  induction f generalizing parent first with
  | nil => simp [Forest.size]
  | cons c s below after ihb iha =>
    obtain ⟨hnode, hbelow, hafter⟩ := h
    rw [range'_size_cons, List.forall_mem_cons, List.forall_mem_append]
    refine ⟨?_, ?_, ?_⟩
    · rw [node_eq_of_get? hnode, ← List.count_pos_iff, count_ends_below (by omega),
        count_ends_of_lt (Nat.lt_succ_self first), tops_eq_nil]
      split <;> omega
    · intro id hid
      have hrange := List.mem_range'_1.1 hid
      rw [← List.count_pos_iff, count_ends_below hrange.2, ← ihb hbelow id hid,
        ← List.count_pos_iff]
      split
      · -- the last group below has no children, so it is an end already
        rename_i hlast
        have hleaf : (t.node id).children = [] := by
          rw [List.eq_nil_iff_forall_not_mem]
          intro child hc
          have hchild := hbelow.mem_children hrange.1 hrange.2 hc
          omega
        have hend := List.count_pos_iff.2 ((ihb hbelow id hid).2 hleaf)
        omega
      · rw [Nat.add_zero]
    · intro id hid
      have hrange := List.mem_range'_1.1 hid
      rw [← List.count_pos_iff, count_ends_after hrange.1, List.count_pos_iff, iha hafter id hid]

/-- The positions of the groups below the first group of a carried forest. -/
theorem Carries.subtree_first {c : Connective} {s : PredicateSet} {below after : Forest}
    (h : t.Carries parent first (.cons c s below after)) (hsize : 1 + below.size ≤ t.size) :
    t.subtree first = List.range' first (below.size + 1) := by
  have htop : t.Carries parent first (.cons c s below .nil) := ⟨h.1, h.2.1, trivial⟩
  have hdepth : (Forest.cons c s below .nil).size ≤ t.size := by
    rw [Forest.size, Forest.size]
    omega
  have hvisit := htop.visit [] hdepth
  rw [tops, tops, List.foldr_cons, List.foldr_nil, List.append_nil, Forest.size, Forest.size,
    Nat.add_zero, Nat.add_comm 1] at hvisit
  exact hvisit

/-- The subtree of a group ends where `ends` says. -/
theorem Carries.getLast?_subtree (h : t.Carries parent first f) (hsize : f.size ≤ t.size) :
    (List.range' first f.size).map (fun id => (t.subtree id).getLast?) =
      (f.ends first).map some := by
  induction f generalizing parent first with
  | nil => rfl
  | cons c s below after ihb iha =>
    have hsubtree := h.subtree_first (by rw [Forest.size] at hsize; omega)
    obtain ⟨hnode, hbelow, hafter⟩ := h
    rw [Forest.size] at hsize
    rw [range'_size_cons, List.map_cons, List.map_append, ihb hbelow (by omega),
      iha hafter (by omega), hsubtree, List.range'_1_concat, List.getLast?_concat, ends,
      List.map_cons, List.map_append]

/-- A group is as often an end as there are subtrees that end with it. -/
theorem Carries.count_ends (h : t.Carries parent first f) (hsize : f.size ≤ t.size) (id : Nat) :
    (f.ends first).count id =
      (List.range' first f.size).countP fun above => (t.subtree above).getLast? = some id := by
  calc (f.ends first).count id = ((f.ends first).map some).count (some id) := by
        rw [List.count_eq_countP, List.count_eq_countP, List.countP_map]
        refine List.countP_congr fun x _ => ?_
        simp
    _ = (List.range' first f.size).countP fun above => (t.subtree above).getLast? = some id := by
        rw [← h.getLast?_subtree hsize, List.count_eq_countP, List.countP_map]
        refine List.countP_congr fun x _ => ?_
        simp

end Tree

end Worklist
