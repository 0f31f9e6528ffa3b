import Worklist.Proofs.Predicate.Entries
import Worklist.Proofs.Query.Layout

/-!
# Sound groups

What holds of every group of a reachable query.  The entry of a dimension is
sound by itself; in a whole group candidate users and candidate groups exclude
each other, and assigned tasks are only included beside a filter on
candidates.

`Sound.step` and `Sound.merge` are the two ways in which a group changes, and
`Reachable.sound` is the result: the tree of a reachable query is the layout
of a forest of sound groups.
-/

namespace Worklist

/-- What a sound group holds for one dimension. -/
structure Dimension.SoundEntry (d : Dimension) (ts : Option (List Term)) (e : Option String) :
    Prop where
  filled : ts ≠ some []
  fits : ∀ t ∈ ts.getD [], t.kind = d.termKind ∧ t ≠ .textSet []
  exclusive : ts = none ∨ e = none
  allowed : e ≠ none → d.supportsExpression = true

/-- What holds of the filters of every group of a reachable query. -/
structure PredicateSet.Sound (c : Connective) (s : PredicateSet) : Prop where
  entry : ∀ d : Dimension, d.SoundEntry (s.terms.get? d) (s.expressions.get? d)
  exclusion : c = .and → s.conflicts = false
  assigned : s.hasFlag .includeAssignedTasks = true → s.hasCandidatePredicate = true

namespace PredicateSet

variable {c : Connective} {s r base ext : PredicateSet}

theorem Sound.empty (c : Connective) : Sound c .empty := by
  refine ⟨?_, ?_, ?_⟩
  · intro d
    refine ⟨?_, ?_, ?_, ?_⟩ <;> simp [PredicateSet.empty]
  · intro _
    simp [conflicts, hasPredicate_empty]
  · simp [hasFlag_empty]

/-! ## Entries -/

/-- The values of a dimension after one more value, which replaces the others or joins them. -/
theorem soundEntry_setTerm (h : Sound c s) {d : Dimension} {t : Term} (fits : t.kind = d.termKind)
    (filled : t ≠ .textSet []) (e : Dimension) :
    e.SoundEntry ((s.setTerm d t c).terms.get? e) ((s.setTerm d t c).expressions.get? e) := by
  have he := h.entry e
  rw [setTerm, Table.get?_set, Table.get?_erase]
  by_cases hde : d = e
  · subst hde
    rw [if_pos rfl, if_pos rfl]
    refine ⟨?_, ?_, .inr rfl, ?_⟩
    · split <;> simp
    · rw [Option.getD_some]
      intro u hu
      split at hu
      · rw [List.mem_singleton] at hu
        subst hu
        exact ⟨fits, filled⟩
      · rw [List.mem_append, List.mem_singleton] at hu
        rcases hu with hu | rfl
        · exact he.fits u hu
        · exact ⟨fits, filled⟩
    · intro hne
      exact absurd rfl hne
  · rw [if_neg hde, if_neg hde]
    exact he

theorem soundEntry_setExpression (h : Sound c s) {d : Dimension} (x : String)
    (allowed : d.supportsExpression = true) (e : Dimension) :
    e.SoundEntry ((s.setExpression d x).terms.get? e)
      ((s.setExpression d x).expressions.get? e) := by
  rw [setExpression, Table.get?_set, Table.get?_erase]
  by_cases hde : d = e
  · subst hde
    rw [if_pos rfl, if_pos rfl]
    exact ⟨by simp, by simp, .inl rfl, fun _ => allowed⟩
  · rw [if_neg hde, if_neg hde]
    exact h.entry e

theorem soundEntry_mergeFilters (hb : Sound .and base) (he : Sound .and ext) (d : Dimension) :
    d.SoundEntry ((base.mergeFilters ext).terms.get? d)
      ((base.mergeFilters ext).expressions.get? d) := by
  have hs : d.SoundEntry ((source base ext d).terms.get? d)
      ((source base ext d).expressions.get? d) := by
    rw [source]
    split
    · exact he.entry d
    · exact hb.entry d
  rw [get?_terms_mergeFilters, get?_expressions_mergeFilters]
  refine ⟨hs.filled, hs.fits, ?_, ?_⟩
  · rcases hs.exclusive with hnone | hnone
    · exact .inl hnone
    · rw [hnone]
      exact .inr (ite_self none)
  · intro hne
    split at hne
    · exact absurd rfl hne
    · exact hs.allowed hne

/-! ## Steps and merges -/

/-- A checked dimension does not bring a candidate user and candidate groups together. -/
theorem conflicts_of_checked (h : s.conflicts = false) {d : Dimension} {isExpression : Bool}
    (checked : s.checkCandidates .and isExpression d = .ok ())
    (hr : ∀ e, r.hasPredicate e = (decide (d = e) || s.hasPredicate e)) : r.conflicts = false := by
  unfold checkCandidates at checked
  rw [beq_self_eq_true, Bool.true_or, if_pos rfl] at checked
  rw [conflicts] at h ⊢
  rw [hr, hr, hr]
  cases d
  case candidateUser =>
    obtain ⟨hg, hgs⟩ := checkCandidateUser_eq_ok.1 checked
    simp [hg, hgs]
  case candidateGroup =>
    have hu : s.hasPredicate .candidateUser = false := by
      simpa [checkCandidateGroups] using checked
    simp [hu]
  case candidateGroupIn =>
    have hu : s.hasPredicate .candidateUser = false := by
      simpa [checkCandidateGroups] using checked
    simp [hu]
  all_goals simpa using h

/-- A group with one more dimension keeps its filter on candidates. -/
theorem hasCandidatePredicate_of_dimension {d : Dimension}
    (hr : ∀ e, r.hasPredicate e = (decide (d = e) || s.hasPredicate e))
    (hf : ∀ f, r.hasFlag f = s.hasFlag f) (h : s.hasCandidatePredicate = true) :
    r.hasCandidatePredicate = true := by
  refine hasCandidatePredicate_mono ?_ ?_ h
  · intro e he
    rw [hr, he, Bool.or_true]
  · intro f _ hs
    rw [hf, hs]

theorem hasCandidatePredicate_setFlag (f : Flag) (h : s.hasCandidatePredicate = true) :
    (s.setFlag f).hasCandidatePredicate = true := by
  refine hasCandidatePredicate_mono (s := s) ?_ ?_ h
  · intro d hd
    exact hd
  · intro g _ hg
    rw [hasFlag_setFlag, hg, Bool.or_true]

/-- The calls keep a group sound. -/
theorem Sound.step (hr : Step c s r) (h : Sound c s) : Sound c r := by
  cases hr with
  | @term d t fits filled checked =>
    refine ⟨soundEntry_setTerm h fits filled, ?_, ?_⟩
    · rintro rfl
      exact conflicts_of_checked (h.exclusion rfl) checked (hasPredicate_setTerm s d t .and)
    · intro hf
      exact hasCandidatePredicate_of_dimension (hasPredicate_setTerm s d t c) (fun _ => rfl)
        (h.assigned hf)
  | @expression d x allowed checked =>
    refine ⟨soundEntry_setExpression h x allowed, ?_, ?_⟩
    · rintro rfl
      exact conflicts_of_checked (h.exclusion rfl) checked (hasPredicate_setExpression s d x)
    · intro hf
      exact hasCandidatePredicate_of_dimension (hasPredicate_setExpression s d x) (fun _ => rfl)
        (h.assigned hf)
  | @flag f checked =>
    refine ⟨h.entry, h.exclusion, ?_⟩
    intro hf
    have hs : s.hasCandidatePredicate = true := by
      by_cases hfi : f = .includeAssignedTasks
      · exact checked hfi
      · rw [hasFlag_setFlag, decide_eq_false hfi, Bool.false_or] at hf
        exact h.assigned hf
    exact hasCandidatePredicate_setFlag f hs
  | onVariable p => exact ⟨h.entry, h.exclusion, h.assigned⟩

/-- Two groups as one, with the inclusion of assigned tasks if one of them has it. -/
def united (base ext : PredicateSet) : PredicateSet :=
  if base.hasFlag .includeAssignedTasks || ext.hasFlag .includeAssignedTasks then
    (base.mergeFilters ext).setFlag .includeAssignedTasks
  else base.mergeFilters ext

theorem merge_eq_ok :
    base.merge ext = .ok s ↔
      (base.mergeFilters ext).conflicts = false ∧
        ((base.hasFlag .includeAssignedTasks || ext.hasFlag .includeAssignedTasks) = true →
          (base.mergeFilters ext).hasCandidatePredicate = true) ∧ s = base.united ext := by
  rw [merge, united]
  generalize base.mergeFilters ext = merged
  rw [bind_eq_ok]
  split
  · rename_i hinc
    constructor
    · rintro ⟨⟨⟩, hexcl, h⟩
      obtain ⟨⟨⟩, hcand, h⟩ := bind_eq_ok.1 h
      cases h
      exact ⟨checkExclusion_eq_ok.1 hexcl, fun _ => checkAssignedTasks_eq_ok.1 hcand, rfl⟩
    · rintro ⟨hexcl, hcand, rfl⟩
      exact ⟨(), checkExclusion_eq_ok.2 hexcl,
        bind_eq_ok.2 ⟨(), checkAssignedTasks_eq_ok.2 (hcand hinc), rfl⟩⟩
  · rename_i hinc
    constructor
    · rintro ⟨⟨⟩, hexcl, h⟩
      cases h
      exact ⟨checkExclusion_eq_ok.1 hexcl, fun h => absurd h hinc, rfl⟩
    · rintro ⟨hexcl, -, rfl⟩
      exact ⟨(), checkExclusion_eq_ok.2 hexcl, rfl⟩

/-- Merges keep root groups sound. -/
theorem Sound.merge (h : base.merge ext = .ok s) (hb : Sound .and base) (he : Sound .and ext) :
    Sound .and s := by
  obtain ⟨hexcl, hcand, rfl⟩ := merge_eq_ok.1 h
  rw [united]
  split
  · rename_i hinc
    refine ⟨soundEntry_mergeFilters hb he, fun _ => hexcl, fun _ => ?_⟩
    exact hasCandidatePredicate_setFlag _ (hcand hinc)
  · refine ⟨soundEntry_mergeFilters hb he, fun _ => hexcl, ?_⟩
    intro hf
    rw [hasFlag_mergeFilters] at hf
    simp at hf

end PredicateSet

/-- The tree of a reachable query is the layout of a forest of sound groups. -/
theorem Query.Reachable.sound {q : Query} (h : q.Reachable) :
    ∃ s f, q.tree = .ofForest s f ∧ f.All PredicateSet.Sound ∧ PredicateSet.Sound .and s :=
  h.tree_eq PredicateSet.Sound.empty PredicateSet.Sound.step PredicateSet.Sound.merge

end Worklist
