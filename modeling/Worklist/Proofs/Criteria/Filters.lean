import Worklist.Criteria.Clause
import Worklist.Evaluation
import Worklist.Proofs.Criteria.Compile

/-!
# The filters of a group

A group is written and evaluated filter by filter: the literal values by
dimension, each list in its order, then the expressions by dimension, then the
switches that filter, then the variables in the order in which they were
added.  `PredicateSet.filters` is that list.

The conditions that are written and the outcomes that are computed are both
taken over this list (`ownConditions_eq` and `ownOutcomes_eq`), so that they
agree in number and order.
-/

namespace Worklist

/-- One filter of a group. -/
inductive Filter where
  | term (d : Dimension) (t : Term)
  | expression (d : Dimension) (e : String)
  | flag (f : Flag)
  | onVariable (p : VariablePredicate)

namespace PredicateSet

/-- The filters of a group in order. -/
def filters (s : PredicateSet) : List Filter :=
  Dimension.all.toList.flatMap (fun d => (s.termsOf d).map (.term d)) ++
    Dimension.all.toList.filterMap (fun d => (s.expressionOf? d).map (.expression d)) ++
    (Flag.all.toList.filter fun f => s.hasFlag f && !f.isModifier).map .flag ++
    s.variablePredicates.map .onVariable

end PredicateSet

namespace Criteria

/-- The condition that is written for a filter. -/
def condition (c : Criteria) (s : PredicateSet) : Filter → Sql.Condition
  | .term d t => c.termCondition s d t
  | .expression d e => c.expressionCondition s d e
  | .flag f => flagCondition s f
  | .onVariable p => variableCondition s p c.likeEscape

/-- The outcome that is computed for a filter. -/
def filterOutcome (c : Criteria) (resolve : ExpressionResolver) (task : Task)
    (s : PredicateSet) : Filter → Except BackendError Bool
  | .term d t => c.termOutcome task s d t
  | .expression d e => c.expressionOutcome resolve task s d e
  | .flag f => .ok (flagOutcome s task f)
  | .onVariable p => .ok (variableOutcome s p c.likeEscape task)

end Criteria

/-! ## Tables as lists -/

theorem allKeys_dimension : Table.allKeys Dimension = Dimension.all.toList := by
  decide

theorem allKeys_flag : Table.allKeys Flag = Flag.all.toList := by
  decide

theorem Dimension.mem_all (d : Dimension) : d ∈ Dimension.all := by
  rw [← Vector.mem_toList_iff, ← allKeys_dimension]
  exact Table.mem_allKeys d

theorem Flag.mem_all (f : Flag) : f ∈ Flag.all := by
  rw [← Vector.mem_toList_iff, ← allKeys_flag]
  exact Table.mem_allKeys f

namespace Table

variable {κ α β : Type} [Numbered κ]

theorem flatMap_toList (t : Table κ α) (g : κ → α → List β) :
    t.toList.flatMap (fun e => g e.1 e.2) =
      (allKeys κ).flatMap fun k => ((t.get? k).map (g k)).getD [] := by
  rw [toList]
  induction allKeys κ with
  | nil => rfl
  | cons k keys ih =>
    rw [List.flatMap_cons, ← ih, List.filterMap_cons]
    cases t.get? k <;> rfl

theorem map_toList (t : Table κ α) (g : κ → α → β) :
    t.toList.map (fun e => g e.1 e.2) =
      (allKeys κ).filterMap fun k => (t.get? k).map (g k) := by
  rw [toList]
  induction allKeys κ with
  | nil => rfl
  | cons k keys ih =>
    rw [List.filterMap_cons, List.filterMap_cons, ← ih]
    cases t.get? k <;> rfl

theorem keys_toList (t : Table κ α) : t.toList.map (·.1) = (allKeys κ).filter t.contains := by
  rw [toList]
  induction allKeys κ with
  | nil => rfl
  | cons k keys ih =>
    rw [List.filterMap_cons, List.filter_cons, ← ih, contains]
    cases t.get? k <;> rfl

end Table

namespace PredicateSet

theorem filterFlags_eq (s : PredicateSet) :
    s.filterFlags = Flag.all.toList.filter fun f => s.hasFlag f && !f.isModifier := by
  rw [filterFlags, Table.keys_toList, allKeys_flag, List.filter_filter]
  refine List.filter_congr fun f _ => ?_
  rw [Bool.and_comm]
  rfl

theorem mem_filterFlags {s : PredicateSet} {f : Flag} :
    f ∈ s.filterFlags ↔ s.hasFlag f = true ∧ f.isModifier = false := by
  simp [filterFlags_eq, Flag.mem_all]

/-- The filters, read off the tables. -/
theorem filters_eq (s : PredicateSet) :
    s.filters = s.terms.toList.flatMap (fun e => e.2.map (.term e.1)) ++
      s.expressions.toList.map (fun e => .expression e.1 e.2) ++ s.filterFlags.map .flag ++
      s.variablePredicates.map .onVariable := by
  have hterms : s.terms.toList.flatMap (fun e => e.2.map (Filter.term e.1)) =
      Dimension.all.toList.flatMap (fun d => (s.termsOf d).map (.term d)) := by
    rw [Table.flatMap_toList s.terms fun d ts => ts.map (Filter.term d), allKeys_dimension]
    congr 1
    funext d
    rw [termsOf]
    cases s.terms.get? d <;> rfl
  have hexpressions : s.expressions.toList.map (fun e => Filter.expression e.1 e.2) =
      Dimension.all.toList.filterMap (fun d => (s.expressionOf? d).map (.expression d)) := by
    rw [Table.map_toList s.expressions, allKeys_dimension]
    rfl
  rw [filters, hterms, hexpressions, filterFlags_eq]

theorem mem_filters_term {s : PredicateSet} {d : Dimension} {t : Term} :
    .term d t ∈ s.filters ↔ t ∈ s.termsOf d := by
  simp [filters, Dimension.mem_all]

theorem mem_filters_expression {s : PredicateSet} {d : Dimension} {e : String} :
    .expression d e ∈ s.filters ↔ s.expressionOf? d = some e := by
  simp [filters, Dimension.mem_all]

theorem mem_filters_flag {s : PredicateSet} {f : Flag} :
    .flag f ∈ s.filters ↔ s.hasFlag f = true ∧ f.isModifier = false := by
  simp [filters, Flag.mem_all]

theorem mem_filters_onVariable {s : PredicateSet} {p : VariablePredicate} :
    .onVariable p ∈ s.filters ↔ p ∈ s.variablePredicates := by
  simp [filters]

/-- A sound group without filters in its list filters nothing. -/
theorem Sound.isEmpty_of_filters {k : Connective} {s : PredicateSet} (h : Sound k s)
    (hf : s.filters = []) : s.isEmpty = true := by
  rw [filters_eq, List.append_eq_nil_iff, List.append_eq_nil_iff, List.append_eq_nil_iff] at hf
  obtain ⟨⟨⟨hterms, hexpressions⟩, hflags⟩, hvariables⟩ := hf
  have hnone : s.terms.toList = [] := by
    rw [List.eq_nil_iff_forall_not_mem]
    rintro ⟨d, ts⟩ hmem
    have hts : ts = [] := by simpa using List.flatMap_eq_nil_iff.1 hterms _ hmem
    refine (h.entry d).filled ?_
    rw [← hts]
    exact Table.mem_toList.1 hmem
  rw [List.map_eq_nil_iff] at hexpressions hflags hvariables
  rw [isEmpty, Table.isEmpty_of_toList hnone, Table.isEmpty_of_toList hexpressions, hflags,
    hvariables]
  rfl

theorem filters_of_isEmpty {s : PredicateSet} (h : s.isEmpty = true) : s.filters = [] := by
  rw [isEmpty, Bool.and_eq_true, Bool.and_eq_true, Bool.and_eq_true] at h
  obtain ⟨⟨⟨hterms, hexpressions⟩, hvariables⟩, hflags⟩ := h
  rw [filters_eq, Table.toList_of_isEmpty hterms, Table.toList_of_isEmpty hexpressions,
    List.isEmpty_iff.1 hflags, List.isEmpty_iff.1 hvariables]
  rfl

/-- A sound group is empty if it has no filter. -/
theorem Sound.isEmpty_iff {k : Connective} {s : PredicateSet} (h : Sound k s) :
    s.isEmpty = true ↔ s.filters = [] :=
  ⟨filters_of_isEmpty, h.isEmpty_of_filters⟩

end PredicateSet

/-! ## Conditions and outcomes -/

namespace Criteria

variable (c : Criteria) (s : PredicateSet)

theorem ownConditions_eq : c.ownConditions s = s.filters.map (c.condition s) := by
  rw [ownConditions, PredicateSet.filters_eq]
  simp only [List.map_append, List.map_flatMap, List.map_map]
  rfl

theorem ownOutcomes_eq (resolve : ExpressionResolver) (task : Task) :
    c.ownOutcomes resolve task s = s.filters.mapM (c.filterOutcome resolve task s) := by
  have hterms : s.terms.toList.flatMap (fun e => e.2.map (Filter.term e.1)) =
      (s.terms.toList.flatMap fun e => e.2.map (e.1, ·)).map fun e => .term e.1 e.2 := by
    simp only [List.map_flatMap, List.map_map]
    rfl
  rw [ownOutcomes, PredicateSet.filters_eq, hterms]
  simp only [List.mapM_append, List.mapM_map]
  have hflags : s.filterFlags.mapM (c.filterOutcome resolve task s ∘ .flag) =
      .ok (s.filterFlags.map (flagOutcome s task)) := List.mapM_pure
  have hvariables : s.variablePredicates.mapM (c.filterOutcome resolve task s ∘ .onVariable) =
      .ok (s.variablePredicates.map (variableOutcome s · c.likeEscape task)) := List.mapM_pure
  rw [hflags, hvariables]
  simp only [bind_assoc, pure_bind, ok_bind]
  rfl

end Criteria

end Worklist
