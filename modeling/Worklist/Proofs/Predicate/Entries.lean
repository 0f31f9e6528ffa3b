import Worklist.Query.Merge

/-!
# The entries of a group

What a group holds after each operation, entry by entry.  Tables are read with
`Table.get?`; the lemmas here give the readings that the rules on candidates
and the merge of groups are made of.

* Tables over numbered keys: their lists, and when they are empty.
* Single changes: which dimensions and switches a group has afterwards.
* Merged groups: every dimension comes from one of the two groups.
-/

namespace Worklist

/-! ## Tables -/

namespace Table

variable {κ α : Type} [Numbered κ]

theorem mem_allKeys (k : κ) : k ∈ allKeys κ := by
  rw [allKeys, List.mem_map]
  exact ⟨Numbered.index k, List.mem_finRange _, Numbered.item_index k⟩

theorem mem_toList {t : Table κ α} {k : κ} {a : α} : (k, a) ∈ t.toList ↔ t.get? k = some a := by
  rw [toList, List.mem_filterMap]
  constructor
  · rintro ⟨l, -, hl⟩
    rw [Option.map_eq_some_iff] at hl
    obtain ⟨b, hb, heq⟩ := hl
    cases heq
    exact hb
  · intro h
    exact ⟨k, mem_allKeys k, by rw [h]; rfl⟩

theorem isEmpty_iff {t : Table κ α} : t.isEmpty = true ↔ ∀ k, t.get? k = none := by
  rw [isEmpty, Vector.all_eq_true]
  constructor
  · intro h k
    simpa [get?] using h (Numbered.index k) (Numbered.index k).isLt
  · intro h i hi
    simpa [get?, Numbered.index_item] using h (Numbered.item ⟨i, hi⟩)

theorem isEmpty_of_toList {t : Table κ α} (h : t.toList = []) : t.isEmpty = true := by
  rw [isEmpty_iff]
  intro k
  cases hk : t.get? k with
  | none => rfl
  | some a =>
    have hmem := mem_toList.2 hk
    rw [h] at hmem
    cases hmem

theorem toList_of_isEmpty {t : Table κ α} (h : t.isEmpty = true) : t.toList = [] := by
  rw [List.eq_nil_iff_forall_not_mem]
  rintro ⟨k, a⟩ hmem
  have hk := mem_toList.1 hmem
  rw [isEmpty_iff.1 h k] at hk
  cases hk

/-- A table that lists all keys reaches every key. -/
theorem any_items {keys : Vector κ (Numbered.count κ)}
    (h : ∀ i : Fin (Numbered.count κ), keys[i] = Numbered.item i) {p : κ → Bool} :
    keys.any p = true ↔ ∃ k, p k = true := by
  rw [Vector.any_eq_true]
  constructor
  · rintro ⟨i, hi, hp⟩
    exact ⟨_, hp⟩
  · rintro ⟨k, hp⟩
    refine ⟨Numbered.index k, (Numbered.index k).isLt, ?_⟩
    have hk := h (Numbered.index k)
    rw [Numbered.item_index] at hk
    rw [Fin.getElem_fin] at hk
    rw [hk]
    exact hp

end Table

namespace PredicateSet

theorem hasPredicate_empty (d : Dimension) : PredicateSet.empty.hasPredicate d = false := by
  simp [hasPredicate, PredicateSet.empty, Table.contains]

theorem hasFlag_empty (f : Flag) : PredicateSet.empty.hasFlag f = false := by
  simp [hasFlag, PredicateSet.empty, Table.contains]

/-! ## Single changes -/

theorem hasPredicate_setTerm (s : PredicateSet) (d : Dimension) (t : Term) (c : Connective)
    (e : Dimension) : (s.setTerm d t c).hasPredicate e = (decide (d = e) || s.hasPredicate e) := by
  rw [hasPredicate, hasPredicate, setTerm, Table.contains, Table.contains, Table.get?_set,
    Table.get?_erase]
  split <;> simp_all [Table.contains]

theorem hasPredicate_setExpression (s : PredicateSet) (d : Dimension) (x : String)
    (e : Dimension) :
    (s.setExpression d x).hasPredicate e = (decide (d = e) || s.hasPredicate e) := by
  rw [hasPredicate, hasPredicate, setExpression, Table.contains, Table.contains, Table.get?_set,
    Table.get?_erase]
  split <;> simp_all [Table.contains]

theorem hasFlag_setFlag (s : PredicateSet) (f g : Flag) :
    (s.setFlag f).hasFlag g = (decide (f = g) || s.hasFlag g) := by
  rw [hasFlag, hasFlag, setFlag, Table.contains, Table.contains, Table.get?_set]
  split <;> simp_all

theorem hasPredicate_setFlag (s : PredicateSet) (f : Flag) (d : Dimension) :
    (s.setFlag f).hasPredicate d = s.hasPredicate d := rfl

/-! ## Filters on candidates -/

theorem hasCandidatePredicate_iff {s : PredicateSet} :
    s.hasCandidatePredicate = true ↔
      (∃ d : Dimension, d.isCandidate = true ∧ s.hasPredicate d = true) ∨
        ∃ f : Flag, f.isCandidateRelated = true ∧ s.hasFlag f = true := by
  rw [hasCandidatePredicate, Bool.or_eq_true, Table.any_items fun _ => rfl,
    Table.any_items fun _ => rfl]
  simp only [Bool.and_eq_true]

/-- A group with more filters keeps a filter on candidates. -/
theorem hasCandidatePredicate_mono {s r : PredicateSet}
    (hd : ∀ d, s.hasPredicate d = true → r.hasPredicate d = true)
    (hf : ∀ f, f.isCandidateRelated = true → s.hasFlag f = true → r.hasFlag f = true)
    (h : s.hasCandidatePredicate = true) : r.hasCandidatePredicate = true := by
  rw [hasCandidatePredicate_iff] at h ⊢
  rcases h with ⟨d, hc, hp⟩ | ⟨f, hc, hp⟩
  · exact .inl ⟨d, hc, hd d hp⟩
  · exact .inr ⟨f, hc, hf f hc hp⟩

/-- Whether a candidate user stands beside a filter on candidate groups. -/
def conflicts (s : PredicateSet) : Bool :=
  s.hasPredicate .candidateUser && (s.hasPredicate .candidateGroup ||
    s.hasPredicate .candidateGroupIn)

theorem checkCandidateUser_eq_ok {s : PredicateSet} :
    s.checkCandidateUser = .ok () ↔
      s.hasPredicate .candidateGroup = false ∧ s.hasPredicate .candidateGroupIn = false := by
  rw [checkCandidateUser, candidateGroupFilter?]
  cases s.hasPredicate .candidateGroup <;> cases s.hasPredicate .candidateGroupIn <;> simp

theorem checkExclusion_of_conflicts {s : PredicateSet} (h : s.conflicts = true) :
    ∃ other, s.checkExclusion = .error (.userWithGroups other) := by
  rw [conflicts, Bool.and_eq_true] at h
  rw [checkExclusion, if_pos h.1, checkCandidateUser, candidateGroupFilter?]
  cases hg : s.hasPredicate .candidateGroup with
  | true => exact ⟨_, rfl⟩
  | false =>
    rw [hg, Bool.false_or] at h
    rw [h.2]
    exact ⟨_, rfl⟩

theorem checkExclusion_eq_ok {s : PredicateSet} :
    s.checkExclusion = .ok () ↔ s.conflicts = false := by
  rw [checkExclusion, conflicts]
  split
  · rename_i h
    rw [checkCandidateUser_eq_ok, h, Bool.true_and, Bool.or_eq_false_iff]
  · rename_i h
    simp [h]

/-! ## Merged groups -/

/-- The group that a dimension of a merged group comes from. -/
def source (base ext : PredicateSet) (d : Dimension) : PredicateSet :=
  if ext.hasPredicate d then ext else base

theorem get?_terms_mergeFilters (base ext : PredicateSet) (d : Dimension) :
    (base.mergeFilters ext).terms.get? d = (source base ext d).terms.get? d := by
  simp only [mergeFilters, Table.get?_ofFn, source]

theorem get?_expressions_mergeFilters (base ext : PredicateSet) (d : Dimension) :
    (base.mergeFilters ext).expressions.get? d =
      if (source base ext d).terms.contains d then none
      else (source base ext d).expressions.get? d := by
  simp only [mergeFilters, Table.get?_ofFn]
  rfl

theorem hasPredicate_mergeFilters (base ext : PredicateSet) (d : Dimension) :
    (base.mergeFilters ext).hasPredicate d = (base.hasPredicate d || ext.hasPredicate d) := by
  have hsource : (base.mergeFilters ext).hasPredicate d = (source base ext d).hasPredicate d := by
    rw [hasPredicate, hasPredicate, Table.contains, get?_terms_mergeFilters, Table.contains,
      get?_expressions_mergeFilters]
    cases h : (source base ext d).terms.contains d <;> simp_all [Table.contains]
  rw [hsource, source]
  cases h : ext.hasPredicate d <;> simp [h]

theorem hasFlag_mergeFilters (base ext : PredicateSet) (f : Flag) :
    (base.mergeFilters ext).hasFlag f =
      (decide (f ≠ .includeAssignedTasks) && (base.hasFlag f || ext.hasFlag f)) := by
  have hget : (base.mergeFilters ext).flags.get? f =
      if f ≠ .includeAssignedTasks ∧ (base.hasFlag f || ext.hasFlag f) then some () else none := by
    simp only [mergeFilters, Table.get?_ofFn]
  rw [hasFlag, Table.contains, hget]
  split <;> simp_all

theorem conflicts_mergeFilters (base ext : PredicateSet) :
    (base.mergeFilters ext).conflicts =
      ((base.hasPredicate .candidateUser || ext.hasPredicate .candidateUser) &&
        ((base.hasPredicate .candidateGroup || ext.hasPredicate .candidateGroup) ||
          (base.hasPredicate .candidateGroupIn || ext.hasPredicate .candidateGroupIn))) := by
  rw [conflicts, hasPredicate_mergeFilters, hasPredicate_mergeFilters, hasPredicate_mergeFilters]

end PredicateSet

end Worklist
