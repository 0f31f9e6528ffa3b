import Mathlib.Data.List.Basic
import Worklist.Proofs.Sorting.Order

/-!
# Stable sorting

A stable sort puts tasks in the order of the keys and leaves those that no key tells apart in the
order that they had.  `StablySorted` says so with the positions that the tasks had before, and so
leaves no choice even where a task occurs twice.

* `PlacedBefore.asymm` makes the order with positions strict, and `StablySorted.unique` draws the
  conclusion that a list is sorted in at most one way.
* `notAfter` is the test that the sort uses, and `stablySorted_sortTasks` follows it through the
  sort of the tasks with their positions.
* `stablySorted_iff` is the result: `sortTasks` gives the only list that is stably sorted.
-/

namespace Worklist

/-! ## Positions -/

/-- The order of tasks with their positions: by the keys, and by position if no key tells two tasks
apart. -/
def PlacedBefore (keys : List SortKey) (a b : Task × Nat) : Prop :=
  Precedes keys a.1 b.1 ∨ Tied keys a.1 b.1 ∧ a.2 < b.2

/-- A list has the tasks of another one, each position once, in the order of the keys and then of
the positions. -/
def StablySorted (keys : List SortKey) (tasks sorted : List Task) : Prop :=
  ∃ placed : List (Task × Nat),
    placed.Perm tasks.zipIdx ∧ placed.Pairwise (PlacedBefore keys) ∧ placed.map (·.1) = sorted

variable {keys : List SortKey} {tasks sorted : List Task}

theorem StablySorted.perm (h : StablySorted keys tasks sorted) : sorted.Perm tasks := by
  obtain ⟨placed, hperm, -, rfl⟩ := h
  exact (List.zipIdx_map_fst 0 tasks) ▸ hperm.map Prod.fst

theorem PlacedBefore.asymm {a b : Task × Nat} (hab : PlacedBefore keys a b) :
    ¬PlacedBefore keys b a := by
  have hkeys := compares_keys keys
  rintro (hba | ⟨htied, hlt⟩) <;> rcases hab with hab | ⟨htied', hlt'⟩
  · exact hkeys.asymm hab hba
  · exact hkeys.not_same hba (hkeys.same_symm htied')
  · exact hkeys.not_same hab (hkeys.same_symm htied)
  · exact Nat.lt_asymm hlt hlt'

/-- Positions leave no choice. -/
theorem StablySorted.unique {sorted' : List Task} (h : StablySorted keys tasks sorted)
    (h' : StablySorted keys tasks sorted') : sorted = sorted' := by
  obtain ⟨placed, hperm, hplaced, rfl⟩ := h
  obtain ⟨placed', hperm', hplaced', rfl⟩ := h'
  have heq : placed = placed' := by
    refine List.Perm.eq_of_pairwise ?_ hplaced hplaced' (hperm.trans hperm'.symm)
    exact fun a b _ _ hab hba => absurd hba hab.asymm
  rw [heq]

/-! ## The sort -/

/-- The test that the sort uses: the second task does not come before the first. -/
def notAfter (keys : List SortKey) (a b : Task) : Bool := compareByKeys keys a b != .gt

theorem notAfter_iff {a b : Task} : notAfter keys a b = true ↔ ¬Precedes keys b a := by
  rw [notAfter, bne_iff_ne, ne_eq, (compares_keys keys).eq_gt_iff]

theorem notAfter_eq (a b : Task) : notAfter keys a b = (compareByKeys keys a b).isLE := by
  rw [notAfter]
  cases compareByKeys keys a b <;> rfl

theorem notAfter_trans (a b c : Task) (hab : notAfter keys a b = true)
    (hbc : notAfter keys b c = true) : notAfter keys a c = true := by
  have := (compares_keys keys).trans
  rw [notAfter_eq] at hab hbc ⊢
  exact Std.TransCmp.isLE_trans hab hbc

theorem notAfter_total (a b : Task) : (notAfter keys a b || notAfter keys b a) = true := by
  rw [Bool.or_eq_true, notAfter_iff, notAfter_iff, ← not_and_or]
  exact fun h => (compares_keys keys).asymm h.1 h.2

/-- With positions that differ, the test and then the positions decide the order. -/
theorem placedBefore_of_zipIdxLE {a b : Task × Nat}
    (h : List.zipIdxLE (notAfter keys) a b = true) (hne : a.2 ≠ b.2) : PlacedBefore keys a b := by
  have hkeys := compares_keys keys
  rw [List.zipIdxLE] at h
  split at h
  · rename_i hab
    rcases hkeys.trichotomy a.1 b.1 with hlt | htied | hgt
    · exact .inl hlt
    · have hba : notAfter keys b.1 a.1 = true :=
        notAfter_iff.2 fun hlt => hkeys.not_same hlt htied
      rw [if_pos hba, decide_eq_true_iff] at h
      exact .inr ⟨htied, Nat.lt_of_le_of_ne h hne⟩
    · exact absurd hgt (notAfter_iff.1 hab)
  · cases h

theorem stablySorted_sortTasks (keys : List SortKey) (tasks : List Task) :
    StablySorted keys tasks (sortTasks keys tasks) := by
  have hperm := List.mergeSort_perm tasks.zipIdx (List.zipIdxLE (notAfter keys))
  have hsorted : (tasks.zipIdx.mergeSort (List.zipIdxLE (notAfter keys))).Pairwise
      fun a b => List.zipIdxLE (notAfter keys) a b = true :=
    List.pairwise_mergeSort (List.zipIdxLE_trans notAfter_trans)
      (List.zipIdxLE_total notAfter_total) tasks.zipIdx
  have hpositions : (tasks.zipIdx.mergeSort (List.zipIdxLE (notAfter keys))).Pairwise
      fun a b => a.2 ≠ b.2 := by
    rw [← List.pairwise_map]
    refine (hperm.map Prod.snd).nodup_iff.2 ?_
    rw [List.zipIdx_map_snd]
    exact List.nodup_range'
  exact ⟨_, hperm, hsorted.imp₂ (fun _ _ => placedBefore_of_zipIdxLE) hpositions,
    List.mergeSort_zipIdx⟩

/-- Sorting gives the only list that is stably sorted. -/
theorem stablySorted_iff : StablySorted keys tasks sorted ↔ sortTasks keys tasks = sorted := by
  constructor
  · exact (stablySorted_sortTasks keys tasks).unique
  · rintro rfl
    exact stablySorted_sortTasks keys tasks

end Worklist
