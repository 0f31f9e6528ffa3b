import Worklist.Proofs.Predicate.Sound

/-!
# Merging is associative

A merged group is read entry by entry: the last group that has a dimension
gives its values or its expression, switches are united, and a variable gives
way to the later ones with its key.  Each reading is associative and has the
empty group as its unit, and the entries determine the group.

Merging sound groups only fails because a candidate user meets candidate
groups, and more groups never remove such a conflict.  `merge_of_conflicts`
and `merge_of_not_conflicts` are the two cases.
-/

namespace Worklist

namespace PredicateSet

variable {a b c s r : PredicateSet}

/-- The entries determine a group. -/
theorem ext_entries (ht : ∀ d, s.terms.get? d = r.terms.get? d)
    (he : ∀ d, s.expressions.get? d = r.expressions.get? d) (hf : ∀ f, s.hasFlag f = r.hasFlag f)
    (hv : s.variablePredicates = r.variablePredicates) : s = r := by
  obtain ⟨st, se, sf, sv⟩ := s
  obtain ⟨rt, re, rf, rv⟩ := r
  have hflags : sf = rf := by
    refine Table.ext fun f => ?_
    have hsome : (sf.get? f).isSome = (rf.get? f).isSome := hf f
    cases hs : sf.get? f <;> cases hr : rf.get? f <;> simp_all
  rw [mk.injEq]
  exact ⟨Table.ext ht, Table.ext he, hflags, hv⟩

/-! ## The entries of two groups as one -/

theorem get?_terms_united (a b : PredicateSet) (d : Dimension) :
    (a.united b).terms.get? d = (source a b d).terms.get? d := by
  have hterms : (a.united b).terms = (a.mergeFilters b).terms := by
    rw [united]
    split <;> rfl
  rw [hterms, get?_terms_mergeFilters]

/-- In sound groups a literal value leaves no room for an expression. -/
theorem get?_expressions_united (ha : Sound .and a) (hb : Sound .and b) (d : Dimension) :
    (a.united b).expressions.get? d = (source a b d).expressions.get? d := by
  have hexpressions : (a.united b).expressions = (a.mergeFilters b).expressions := by
    rw [united]
    split <;> rfl
  have hs : d.SoundEntry ((source a b d).terms.get? d) ((source a b d).expressions.get? d) := by
    rw [source]
    split
    · exact hb.entry d
    · exact ha.entry d
  rw [hexpressions, get?_expressions_mergeFilters]
  rcases hs.exclusive with hnone | hnone
  · rw [Table.contains, hnone]
    rfl
  · rw [hnone]
    exact ite_self none

theorem hasFlag_united (a b : PredicateSet) (f : Flag) :
    (a.united b).hasFlag f = (a.hasFlag f || b.hasFlag f) := by
  rw [united]
  by_cases hf : f = .includeAssignedTasks
  · subst hf
    split
    · rename_i hinc
      rw [hasFlag_setFlag, hinc]
      rfl
    · rename_i hinc
      rw [hasFlag_mergeFilters]
      simpa using hinc
  · split
    · rw [hasFlag_setFlag, hasFlag_mergeFilters, decide_eq_false (Ne.symm hf), decide_eq_true hf]
      rfl
    · rw [hasFlag_mergeFilters, decide_eq_true hf, Bool.true_and]

theorem hasPredicate_united (a b : PredicateSet) (d : Dimension) :
    (a.united b).hasPredicate d = (a.hasPredicate d || b.hasPredicate d) := by
  rw [← hasPredicate_mergeFilters, united]
  split
  · rw [hasPredicate_setFlag]
  · rfl

theorem variablePredicates_united (a b : PredicateSet) :
    (a.united b).variablePredicates = mergeVariables a.variablePredicates b.variablePredicates := by
  rw [united]
  split <;> rfl

/-! ## Three groups -/

/-- The variables of three groups, the last group first. -/
theorem mergeVariables_assoc (a b c : List VariablePredicate) :
    mergeVariables (mergeVariables a b) c = mergeVariables a (mergeVariables b c) := by
  have hkeys : ∀ p : VariablePredicate,
      (mergeVariables b c).any (fun r => r.mergeKey == p.mergeKey) =
        (c.any (fun r => r.mergeKey == p.mergeKey) || b.any fun r => r.mergeKey == p.mergeKey) := by
    intro p
    rw [Bool.eq_iff_iff, mergeVariables, List.any_append, List.any_filter, Bool.or_eq_true,
      Bool.or_eq_true, List.any_eq_true, List.any_eq_true, List.any_eq_true]
    constructor
    · rintro (hc | ⟨r, hr, hkey⟩)
      · exact .inl hc
      · exact .inr ⟨r, hr, (Bool.and_eq_true _ _ ▸ hkey).2⟩
    · rintro (hc | ⟨r, hr, hkey⟩)
      · exact .inl hc
      · -- a key of the second group is lost only to the same key of the third
        cases hlost : c.any fun q => q.mergeKey == r.mergeKey with
        | false => exact .inr ⟨r, hr, by rw [hlost, hkey]; rfl⟩
        | true =>
          obtain ⟨q, hq, hqr⟩ := List.any_eq_true.1 hlost
          exact .inl ⟨q, hq, by rw [eq_of_beq hqr]; exact hkey⟩
  have hfilter : (a.filter fun p => !(mergeVariables b c).any fun r => r.mergeKey == p.mergeKey) =
      (a.filter fun p => !b.any fun r => r.mergeKey == p.mergeKey).filter
        fun p => !c.any fun r => r.mergeKey == p.mergeKey := by
    rw [List.filter_filter]
    refine List.filter_congr fun p _ => ?_
    rw [hkeys, Bool.not_or]
  rw [mergeVariables, mergeVariables.eq_def a (mergeVariables b c), hfilter, mergeVariables,
    List.filter_append, mergeVariables, List.append_assoc]

/-- A dimension of three groups comes from the last group that has it. -/
theorem source_united {α : Type} (read : PredicateSet → Dimension → α) (d : Dimension)
    (hab : read (a.united b) d = read (source a b d) d)
    (hbc : read (b.united c) d = read (source b c d) d) :
    read (source (a.united b) c d) d = read (source a (b.united c) d) d := by
  rw [source, source, hasPredicate_united]
  cases hc : c.hasPredicate d with
  | true => simp [hbc, source, hc]
  | false =>
    cases hb : b.hasPredicate d with
    | true => simp [hab, hbc, source, hb, hc]
    | false => simp [hab, source, hb]

theorem united_assoc (ha : Sound .and a) (hb : Sound .and b) (hc : Sound .and c)
    (hab : Sound .and (a.united b)) (hbc : Sound .and (b.united c)) :
    (a.united b).united c = a.united (b.united c) := by
  refine ext_entries ?_ ?_ ?_ ?_
  · intro d
    rw [get?_terms_united, get?_terms_united]
    exact source_united (fun s d => s.terms.get? d) d (get?_terms_united a b d)
      (get?_terms_united b c d)
  · intro d
    rw [get?_expressions_united hab hc, get?_expressions_united ha hbc]
    exact source_united (fun s d => s.expressions.get? d) d (get?_expressions_united ha hb d)
      (get?_expressions_united hb hc d)
  · intro f
    rw [hasFlag_united, hasFlag_united, hasFlag_united, hasFlag_united, Bool.or_assoc]
  · rw [variablePredicates_united, variablePredicates_united, variablePredicates_united,
      variablePredicates_united, mergeVariables_assoc]

/-! ## The empty group -/

theorem source_empty (s : PredicateSet) (d : Dimension) : source s .empty d = s := by
  rw [source, hasPredicate_empty]
  rfl

/-- Where a group has nothing, it has as much as the empty group. -/
theorem get?_empty_source (s : PredicateSet) (d : Dimension) :
    (source .empty s d).terms.get? d = s.terms.get? d ∧
      (source .empty s d).expressions.get? d = s.expressions.get? d := by
  rw [source]
  split
  · exact ⟨rfl, rfl⟩
  · rename_i hp
    simp_all [hasPredicate, PredicateSet.empty, Table.contains]

theorem mergeVariables_nil (vs : List VariablePredicate) : mergeVariables vs [] = vs := by
  simp [mergeVariables]

theorem nil_mergeVariables (vs : List VariablePredicate) : mergeVariables [] vs = vs :=
  List.append_nil vs

theorem united_empty (h : Sound .and s) : s.united .empty = s := by
  refine ext_entries ?_ ?_ ?_ ?_
  · intro d
    rw [get?_terms_united, source_empty]
  · intro d
    rw [get?_expressions_united h (Sound.empty .and), source_empty]
  · intro f
    rw [hasFlag_united, hasFlag_empty, Bool.or_false]
  · rw [variablePredicates_united]
    exact mergeVariables_nil s.variablePredicates

theorem empty_united (h : Sound .and s) : PredicateSet.empty.united s = s := by
  refine ext_entries ?_ ?_ ?_ ?_
  · intro d
    rw [get?_terms_united, (get?_empty_source s d).1]
  · intro d
    rw [get?_expressions_united (Sound.empty .and) h, (get?_empty_source s d).2]
  · intro f
    rw [hasFlag_united, hasFlag_empty, Bool.false_or]
  · rw [variablePredicates_united]
    exact nil_mergeVariables s.variablePredicates

/-! ## Conflicts -/

theorem conflicts_united (a b : PredicateSet) :
    (a.united b).conflicts = (a.mergeFilters b).conflicts := by
  rw [conflicts, conflicts_mergeFilters, hasPredicate_united, hasPredicate_united,
    hasPredicate_united]

/-- More filters do not remove a conflict. -/
theorem conflicts_mono (h : ∀ d, s.hasPredicate d = true → r.hasPredicate d = true)
    (hs : s.conflicts = true) : r.conflicts = true := by
  rw [conflicts, Bool.and_eq_true, Bool.or_eq_true] at hs ⊢
  exact ⟨h _ hs.1, hs.2.imp (h _) (h _)⟩

theorem conflicts_united_left (h : a.conflicts = true) : (a.united b).conflicts = true := by
  refine conflicts_mono (s := a) ?_ h
  intro d hd
  rw [hasPredicate_united, hd, Bool.true_or]

theorem conflicts_united_right (h : b.conflicts = true) : (a.united b).conflicts = true := by
  refine conflicts_mono (s := b) ?_ h
  intro d hd
  rw [hasPredicate_united, hd, Bool.or_true]

/-- A conflict is the first thing that a merge reports. -/
theorem merge_of_conflicts (h : (a.united b).conflicts = true) :
    ∃ e, a.merge b = .error e ∧ e.kind = .mutualExclusion := by
  rw [conflicts_united] at h
  obtain ⟨other, hother⟩ := checkExclusion_of_conflicts h
  refine ⟨.userWithGroups other, ?_, rfl⟩
  rw [merge, hother]
  rfl

/-- Sound groups without a conflict merge: assigned tasks keep the filter on candidates that they
are included beside. -/
theorem merge_of_not_conflicts (ha : Sound .and a) (hb : Sound .and b)
    (h : (a.united b).conflicts = false) : a.merge b = .ok (a.united b) := by
  rw [conflicts_united] at h
  refine merge_eq_ok.2 ⟨h, ?_, rfl⟩
  intro hinc
  have hmono : ∀ {s : PredicateSet}, s.hasCandidatePredicate = true →
      (∀ d, s.hasPredicate d = true → (a.mergeFilters b).hasPredicate d = true) →
      (∀ f, s.hasFlag f = true → a.hasFlag f = true ∨ b.hasFlag f = true) →
      (a.mergeFilters b).hasCandidatePredicate = true := by
    intro s hs hd hf
    refine hasCandidatePredicate_mono hd ?_ hs
    intro f hfc hfs
    have hne : f ≠ .includeAssignedTasks := by
      rintro rfl
      cases hfc
    rw [hasFlag_mergeFilters, decide_eq_true hne, Bool.true_and, Bool.or_eq_true]
    exact hf f hfs
  rw [Bool.or_eq_true] at hinc
  rcases hinc with hinc | hinc
  · refine hmono (ha.assigned hinc) ?_ fun f hf => .inl hf
    intro d hd
    rw [hasPredicate_mergeFilters, hd, Bool.true_or]
  · refine hmono (hb.assigned hinc) ?_ fun f hf => .inr hf
    intro d hd
    rw [hasPredicate_mergeFilters, hd, Bool.or_true]

theorem Sound.united (ha : Sound .and a) (hb : Sound .and b)
    (h : (a.united b).conflicts = false) : Sound .and (a.united b) :=
  Sound.merge (merge_of_not_conflicts ha hb h) ha hb

end PredicateSet

end Worklist
