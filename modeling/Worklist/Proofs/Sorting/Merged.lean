import Worklist.Proofs.Query.Directions
import Worklist.Proofs.Sorting.Stable

/-!
# Sorting by merged keys

A merged query drops the keys of the extension for properties that are sorted by already, whichever
of the two queries sorts by them and in whichever direction.  Where such a key would be asked, an
earlier key for its property has tied, so it ties as well (`compareTasks_eq_eq_of_tied`).

* `compareByKeys_addSortKey` is the step for one key of the extension, `compareByKeys_mergeSortKeys`
  the run for all of them.
* `repeated_keys_dropped` is the result for merged queries.
-/

namespace Worklist

variable {keys : List SortKey} {key : SortKey} {a b : Task}

theorem compareByKeys_append (keys more : List SortKey) (a b : Task) :
    compareByKeys (keys ++ more) a b =
      (compareByKeys keys a b).then (compareByKeys more a b) := by
  induction keys with
  | nil => rfl
  | cons k keys ih =>
    refine (congrArg (k.compareTasks a b).then ih).trans ?_
    exact (Ordering.then_assoc _ _ _).symm

/-- A key does not tell apart two tasks that keys with its property have not told apart.  The
directions are of no consequence. -/
theorem compareTasks_eq_eq_of_tied (hkey : keys.any (·.property == key.property) = true)
    (htied : compareByKeys keys a b = .eq) : key.compareTasks a b = .eq := by
  obtain ⟨k, hk, hproperty⟩ := List.any_eq_true.1 hkey
  rw [key.compares.eq_eq_iff, ← eq_of_beq hproperty]
  exact ((compares_keys keys).eq_eq_iff a b).1 htied k hk

theorem compareByKeys_addSortKey (keys : List SortKey) (key : SortKey) (a b : Task) :
    compareByKeys (addSortKey keys key) a b = compareByKeys (keys ++ [key]) a b := by
  rw [addSortKey]
  split
  · rename_i hkey
    rw [compareByKeys_append]
    cases htied : compareByKeys keys a b with
    | lt => rfl
    | gt => rfl
    | eq =>
      rw [compareByKeys, List.foldr_cons, compareTasks_eq_eq_of_tied hkey htied]
      rfl
  · rfl

theorem compareByKeys_mergeSortKeys (base ext : List SortKey) (a b : Task) :
    compareByKeys (mergeSortKeys base ext) a b = compareByKeys (base ++ ext) a b := by
  induction ext generalizing base with
  | nil => rw [List.append_nil, mergeSortKeys, List.foldl_nil]
  | cons key ext ih =>
    calc compareByKeys (mergeSortKeys base (key :: ext)) a b
      _ = compareByKeys (addSortKey base key ++ ext) a b := by rw [mergeSortKeys_cons, ih]
      _ = (compareByKeys (base ++ [key]) a b).then (compareByKeys ext a b) := by
        rw [compareByKeys_append, compareByKeys_addSortKey]
      _ = compareByKeys (base ++ key :: ext) a b := by
        rw [← compareByKeys_append, ← List.append_cons]

namespace Query

variable {base ext merged : Query}

/-- Dropping keys for properties that are sorted by already does not change any result.

The keys of a merged query compare any two tasks as the keys of the base and then all keys of the
extension do, so they sort every list of tasks in the same way.  Where a key is dropped its
direction may be another one than that of the key that is kept, or none. -/
theorem repeated_keys_dropped (h : base.extend ext = .ok merged) :
    (∀ a b, compareByKeys merged.sortKeys a b =
      compareByKeys (base.sortKeys ++ ext.sortKeys) a b) ∧
    (∀ tasks, sortTasks merged.sortKeys tasks =
      sortTasks (base.sortKeys ++ ext.sortKeys) tasks) ∧
    ∀ tasks sorted, StablySorted merged.sortKeys tasks sorted ↔
      StablySorted (base.sortKeys ++ ext.sortKeys) tasks sorted := by
  have hcompare : compareByKeys merged.sortKeys =
      compareByKeys (base.sortKeys ++ ext.sortKeys) := by
    funext a b
    rw [sortKeys_of_extend h, compareByKeys_mergeSortKeys]
  have hsort (tasks : List Task) : sortTasks merged.sortKeys tasks =
      sortTasks (base.sortKeys ++ ext.sortKeys) tasks := by
    rw [sortTasks, sortTasks, hcompare]
  refine ⟨fun a b => congrFun (congrFun hcompare a) b, hsort, fun tasks sorted => ?_⟩
  rw [stablySorted_iff, stablySorted_iff, hsort]

/-- The extension sorts by the priority in the other direction, and then by the name. -/
theorem repeated_keys_dropped_built :
    ∃ merged, (built [.orderBy .priority, .setDirection .descending]).extend
        (built [.orderBy .priority, .setDirection .ascending, .orderBy .name,
          .setDirection .ascending]) = .ok merged ∧
      merged.sortKeys = [⟨.priority, some .descending⟩, ⟨.name, some .ascending⟩] ∧
      ∀ tasks, sortTasks merged.sortKeys tasks =
        sortTasks [⟨.priority, some .descending⟩, ⟨.priority, some .ascending⟩,
          ⟨.name, some .ascending⟩] tasks := by
  have hmerged : ((built [.orderBy .priority, .setDirection .descending]).extend
      (built [.orderBy .priority, .setDirection .ascending, .orderBy .name,
        .setDirection .ascending])).toOption.map Query.sortKeys =
      some [⟨.priority, some .descending⟩, ⟨.name, some .ascending⟩] := by decide +kernel
  obtain ⟨merged, hmerged, hkeys⟩ := Option.map_eq_some_iff.1 hmerged
  rw [toOption_eq_some] at hmerged
  exact ⟨merged, hmerged, hkeys, (repeated_keys_dropped hmerged).2.1⟩

end Query

end Worklist
