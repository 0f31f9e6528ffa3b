import Worklist.Proofs.Predicate.United

/-!
# Extending queries

Queries whose groups are closed form a monoid under `extend`, with the query
without filters as its unit.  A merge joins the root groups, puts the groups
below one root behind those of the other, and adds the sort keys for the
properties that are not sorted by yet; each part is associative.

* `mergeSortKeys_assoc` and `nil_mergeSortKeys` are the laws for sort keys.
* `extend_finished` reads a merge off the root groups and the forests.
* `extend_monoid` states the laws for reachable queries, with the failures.
-/

namespace Worklist

/-! ## Sort keys -/

/-- Adds a sort key for a property that is not sorted by yet. -/
def addSortKey (keys : List SortKey) (key : SortKey) : List SortKey :=
  if keys.any (·.property == key.property) then keys else keys ++ [key]

theorem mergeSortKeys_cons (base : List SortKey) (key : SortKey) (ext : List SortKey) :
    mergeSortKeys base (key :: ext) = mergeSortKeys (addSortKey base key) ext := rfl

theorem mergeSortKeys_append (base ext more : List SortKey) :
    mergeSortKeys base (ext ++ more) = mergeSortKeys (mergeSortKeys base ext) more := by
  rw [mergeSortKeys, List.foldl_append]
  rfl

/-- A property that is sorted by stays so. -/
theorem any_mergeSortKeys {base : List SortKey} {p : SortKey → Bool} (h : base.any p = true)
    (ext : List SortKey) : (mergeSortKeys base ext).any p = true := by
  induction ext generalizing base with
  | nil => exact h
  | cons key ext ih =>
    rw [mergeSortKeys_cons]
    refine ih ?_
    rw [addSortKey]
    split
    · exact h
    · rw [List.any_append, h, Bool.true_or]

/-- Every property of the extension is sorted by in the end. -/
theorem any_property_mergeSortKeys (base : List SortKey) {ext : List SortKey} {key : SortKey}
    (h : key ∈ ext) : (mergeSortKeys base ext).any (·.property == key.property) = true := by
  induction ext generalizing base with
  | nil => cases h
  | cons first ext ih =>
    rw [mergeSortKeys_cons]
    rcases List.mem_cons.1 h with rfl | h
    · refine any_mergeSortKeys ?_ ext
      rw [addSortKey]
      split
      · rename_i hany
        exact hany
      · simp
    · exact ih _ h

/-- One more key of the extension is one more key of the merged list. -/
theorem mergeSortKeys_addSortKey (base ext : List SortKey) (key : SortKey) :
    mergeSortKeys base (addSortKey ext key) = addSortKey (mergeSortKeys base ext) key := by
  rw [addSortKey]
  split
  · rename_i hany
    obtain ⟨k, hk, heq⟩ := List.any_eq_true.1 hany
    have hin := any_property_mergeSortKeys base hk
    rw [eq_of_beq heq] at hin
    rw [addSortKey, if_pos hin]
  · rw [mergeSortKeys_append]
    rfl

theorem mergeSortKeys_assoc (a b c : List SortKey) :
    mergeSortKeys (mergeSortKeys a b) c = mergeSortKeys a (mergeSortKeys b c) := by
  induction c generalizing b with
  | nil => rfl
  | cons key c ih =>
    rw [mergeSortKeys_cons, mergeSortKeys_cons, ← mergeSortKeys_addSortKey, ih]

/-- Keys for different properties are all added. -/
theorem mergeSortKeys_of_nodup {base ext : List SortKey}
    (h : ((base ++ ext).map SortKey.property).Nodup) : mergeSortKeys base ext = base ++ ext := by
  induction ext generalizing base with
  | nil => rw [List.append_nil]; rfl
  | cons key ext ih =>
    have hnew : base.any (·.property == key.property) = false := by
      rw [List.map_append, List.map_cons, List.nodup_append] at h
      rw [List.any_eq_false]
      intro k hk heq
      exact h.2.2 _ (List.mem_map_of_mem hk) _ List.mem_cons_self (eq_of_beq heq)
    have hadd : addSortKey base key = base ++ [key] := by
      rw [addSortKey, hnew]
      rfl
    rw [mergeSortKeys_cons, hadd, ih (by simpa using h), List.append_assoc, List.singleton_append]

/-- Every merged key comes from one of the two lists. -/
theorem mem_mergeSortKeys {base ext : List SortKey} {key : SortKey}
    (h : key ∈ mergeSortKeys base ext) : key ∈ base ∨ key ∈ ext := by
  induction ext generalizing base with
  | nil => exact .inl h
  | cons first ext ih =>
    rw [mergeSortKeys_cons] at h
    rw [List.mem_cons]
    rcases ih h with hbase | hext
    · rw [addSortKey] at hbase
      split at hbase
      · exact .inl hbase
      · rcases List.mem_append.1 hbase with hbase | hfirst
        · exact .inl hbase
        · exact .inr (.inl (List.mem_singleton.1 hfirst))
    · exact .inr (.inr hext)

theorem nil_mergeSortKeys {keys : List SortKey} (h : (keys.map SortKey.property).Nodup) :
    mergeSortKeys [] keys = keys := mergeSortKeys_of_nodup h

/-! ## Finished queries -/

namespace Query

open PredicateSet

/-- A query whose groups are closed: the root group, the groups below it, and the sort keys. -/
def finished (s : PredicateSet) (f : Forest) (keys : List SortKey) : Query :=
  ⟨.ofForest s f, Tree.root, keys⟩

theorem Reachable.eq_finished {q : Query} (h : q.Reachable) (hroot : q.isAtRoot = true) :
    ∃ s f, q = finished s f q.sortKeys ∧ Sound .and s := by
  obtain ⟨s, f, htree, -, hs⟩ := h.sound
  refine ⟨s, f, ?_, hs⟩
  rw [finished, ← htree, ← eq_of_beq hroot]

/-- A merge of finished queries is a merge of their root groups. -/
theorem extend_finished (s₁ s₂ : PredicateSet) (f₁ f₂ : Forest) (k₁ k₂ : List SortKey) :
    (finished s₁ f₁ k₁).extend (finished s₂ f₂ k₂) =
      (s₁.merge s₂).map fun s => finished s (f₁ ++ f₂) (mergeSortKeys k₁ k₂) := by
  have hjoin : ∀ s, (Tree.ofForest s₁ f₁).join (Tree.ofForest s₂ f₂) s =
      .ofForest s (f₁ ++ f₂) := fun s => Tree.join_ofForest s₁ s₂ s f₁ f₂
  simp only [extend, finished, isAtRoot, beq_self_eq_true, hjoin, Tree.node_root_ofForest]
  cases s₁.merge s₂ <;> rfl

theorem extend_finished_of_conflicts {s₁ s₂ : PredicateSet} (h : (s₁.united s₂).conflicts = true)
    (f₁ f₂ : Forest) (k₁ k₂ : List SortKey) :
    ∃ e, (finished s₁ f₁ k₁).extend (finished s₂ f₂ k₂) = .error e ∧
      e.kind = .mutualExclusion := by
  obtain ⟨e, he, hkind⟩ := merge_of_conflicts h
  refine ⟨e, ?_, hkind⟩
  rw [extend_finished, he]
  rfl

theorem extend_finished_of_not_conflicts {s₁ s₂ : PredicateSet} (h₁ : Sound .and s₁)
    (h₂ : Sound .and s₂) (h : (s₁.united s₂).conflicts = false) (f₁ f₂ : Forest)
    (k₁ k₂ : List SortKey) :
    (finished s₁ f₁ k₁).extend (finished s₂ f₂ k₂) =
      .ok (finished (s₁.united s₂) (f₁ ++ f₂) (mergeSortKeys k₁ k₂)) := by
  rw [extend_finished, merge_of_not_conflicts h₁ h₂ h]
  rfl

/-! ## The laws -/

/-- Two runs give the same query, or both fail with the same kind of failure. -/
def Agree (x y : Except QueryError Query) : Prop :=
  (∃ r, x = .ok r ∧ y = .ok r) ∨
    ∃ e e', x = .error e ∧ y = .error e' ∧ e.kind = e'.kind

section Three

variable {s₁ s₂ s₃ : PredicateSet} (h₁ : Sound .and s₁) (h₂ : Sound .and s₂) (h₃ : Sound .and s₃)
  (f₁ f₂ f₃ : Forest) (k₁ k₂ k₃ : List SortKey)

include h₁ h₂

/-- A conflict among three groups shows at the first merge or at the second. -/
theorem extend_left_of_conflicts (h : ((s₁.united s₂).united s₃).conflicts = true) :
    ∃ e, (finished s₁ f₁ k₁).extend (finished s₂ f₂ k₂) >>= (·.extend (finished s₃ f₃ k₃)) =
      .error e ∧ e.kind = .mutualExclusion := by
  cases h₁₂ : (s₁.united s₂).conflicts with
  | true =>
    obtain ⟨e, he, hkind⟩ := extend_finished_of_conflicts h₁₂ f₁ f₂ k₁ k₂
    rw [he, error_bind]
    exact ⟨e, rfl, hkind⟩
  | false =>
    rw [extend_finished_of_not_conflicts h₁ h₂ h₁₂, ok_bind]
    exact extend_finished_of_conflicts h _ _ _ _

omit h₁ in
include h₃ in
theorem extend_right_of_conflicts (h : (s₁.united (s₂.united s₃)).conflicts = true) :
    ∃ e, (finished s₂ f₂ k₂).extend (finished s₃ f₃ k₃) >>= (finished s₁ f₁ k₁).extend =
      .error e ∧ e.kind = .mutualExclusion := by
  cases h₂₃ : (s₂.united s₃).conflicts with
  | true =>
    obtain ⟨e, he, hkind⟩ := extend_finished_of_conflicts h₂₃ f₂ f₃ k₂ k₃
    rw [he, error_bind]
    exact ⟨e, rfl, hkind⟩
  | false =>
    rw [extend_finished_of_not_conflicts h₂ h₃ h₂₃, ok_bind]
    exact extend_finished_of_conflicts h _ _ _ _

include h₃ in
theorem extend_finished_assoc :
    Agree ((finished s₁ f₁ k₁).extend (finished s₂ f₂ k₂) >>= (·.extend (finished s₃ f₃ k₃)))
      ((finished s₂ f₂ k₂).extend (finished s₃ f₃ k₃) >>= (finished s₁ f₁ k₁).extend) := by
  have hall : (s₁.united (s₂.united s₃)).conflicts = ((s₁.united s₂).united s₃).conflicts := by
    simp only [conflicts, hasPredicate_united, Bool.or_assoc]
  cases h : ((s₁.united s₂).united s₃).conflicts with
  | true =>
    obtain ⟨e, he, hkind⟩ := extend_left_of_conflicts h₁ h₂ f₁ f₂ f₃ k₁ k₂ k₃ h
    rw [h] at hall
    obtain ⟨e', he', hkind'⟩ := extend_right_of_conflicts h₂ h₃ f₁ f₂ f₃ k₁ k₂ k₃ hall
    exact .inr ⟨e, e', he, he', hkind.trans hkind'.symm⟩
  | false =>
    rw [h] at hall
    have h₁₂ : (s₁.united s₂).conflicts = false := by
      rw [← Bool.not_eq_true]
      intro hc
      rw [conflicts_united_left hc] at h
      cases h
    have h₂₃ : (s₂.united s₃).conflicts = false := by
      rw [← Bool.not_eq_true]
      intro hc
      rw [conflicts_united_right hc] at hall
      cases hall
    have hu₁₂ := Sound.united h₁ h₂ h₁₂
    have hu₂₃ := Sound.united h₂ h₃ h₂₃
    refine .inl ⟨finished ((s₁.united s₂).united s₃) (f₁ ++ f₂ ++ f₃)
      (mergeSortKeys (mergeSortKeys k₁ k₂) k₃), ?_, ?_⟩
    · rw [extend_finished_of_not_conflicts h₁ h₂ h₁₂, ok_bind]
      exact extend_finished_of_not_conflicts hu₁₂ h₃ h _ _ _ _
    · rw [extend_finished_of_not_conflicts h₂ h₃ h₂₃, ok_bind, united_assoc h₁ h₂ h₃ hu₁₂ hu₂₃,
        Forest.append_assoc, mergeSortKeys_assoc]
      exact extend_finished_of_not_conflicts h₁ hu₂₃ hall _ _ _ _

end Three

theorem extend_new_finished {s : PredicateSet} (h : Sound .and s) (f : Forest)
    (keys : List SortKey) : (finished s f keys).extend .new = .ok (finished s f keys) := by
  have hnew : Query.new = finished .empty .nil [] := rfl
  have hunited := united_empty h
  rw [hnew, extend_finished_of_not_conflicts h (Sound.empty .and)
    (by rw [hunited]; exact h.exclusion rfl), hunited, Forest.append_nil]
  rfl

theorem new_extend_finished {s : PredicateSet} (h : Sound .and s) (f : Forest)
    {keys : List SortKey} (hkeys : (keys.map SortKey.property).Nodup) :
    Query.new.extend (finished s f keys) = .ok (finished s f keys) := by
  have hnew : Query.new = finished .empty .nil [] := rfl
  have hunited := empty_united h
  rw [hnew, extend_finished_of_not_conflicts (Sound.empty .and) h
    (by rw [hunited]; exact h.exclusion rfl), hunited, nil_mergeSortKeys hkeys, Forest.nil_append]

/-- Queries at their root are a monoid under `extend`: the order in which three queries are merged
does not matter, and the query without filters changes nothing on either side. -/
theorem extend_monoid {a b c : Query} (ha : a.Reachable) (hb : b.Reachable) (hc : c.Reachable)
    (hra : a.isAtRoot = true) (hrb : b.isAtRoot = true) (hrc : c.isAtRoot = true) :
    Agree (a.extend b >>= (·.extend c)) (b.extend c >>= a.extend) ∧
      a.extend .new = .ok a ∧
        ((a.sortKeys.map SortKey.property).Nodup → Query.new.extend a = .ok a) := by
  obtain ⟨s₁, f₁, heq₁, h₁⟩ := ha.eq_finished hra
  obtain ⟨s₂, f₂, heq₂, h₂⟩ := hb.eq_finished hrb
  obtain ⟨s₃, f₃, heq₃, h₃⟩ := hc.eq_finished hrc
  refine ⟨?_, ?_, ?_⟩
  · rw [heq₁, heq₂, heq₃]
    exact extend_finished_assoc h₁ h₂ h₃ f₁ f₂ f₃ _ _ _
  · rw [heq₁]
    exact extend_new_finished h₁ f₁ _
  · intro hkeys
    rw [heq₁]
    exact new_extend_finished h₁ f₁ hkeys

/-- Three queries that the laws apply to: a candidate user whose assigned tasks are included, a
nested group, and a new name together with a second sort key. -/
theorem extend_monoid_built :
    ∃ a b c : Query, (a.Reachable ∧ b.Reachable ∧ c.Reachable) ∧
      (a.isAtRoot = true ∧ b.isAtRoot = true ∧ c.isAtRoot = true) ∧
        (a.sortKeys.map SortKey.property).Nodup ∧
          Agree (a.extend b >>= (·.extend c)) (b.extend c >>= a.extend) ∧
            a.extend .new = .ok a ∧ Query.new.extend a = .ok a := by
  let a := built [.setTerm .candidateUser (.text "ada") rfl, .setFlag .includeAssignedTasks,
    .setTerm .name (.text "check") rfl, .orderBy .priority, .setDirection .descending]
  let b := built [.openGroup .or, .setTerm .assignee (.text "bob") rfl,
    .setTerm .assignee (.text "eve") rfl, .closeGroup .or]
  let c := built [.setTerm .name (.text "sign") rfl, .orderBy .name, .setDirection .ascending]
  have ha : a.Reachable := reachable_built _
  have hb : b.Reachable := reachable_built _
  have hc : c.Reachable := reachable_built _
  have hkeys : (a.sortKeys.map SortKey.property).Nodup := by decide +kernel
  have hra : a.isAtRoot = true := by decide +kernel
  have hrb : b.isAtRoot = true := by decide +kernel
  have hrc : c.isAtRoot = true := by decide +kernel
  obtain ⟨hassoc, hright, hleft⟩ := extend_monoid ha hb hc hra hrb hrc
  exact ⟨a, b, c, ⟨ha, hb, hc⟩, ⟨hra, hrb, hrc⟩, hkeys, hassoc, hright, hleft hkeys⟩

end Query

end Worklist
