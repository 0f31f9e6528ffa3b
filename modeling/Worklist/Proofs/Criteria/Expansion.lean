import Worklist.Proofs.Criteria.Checked
import Worklist.Proofs.Tree.Change

/-!
# Filters read in other queries

A filter is evaluated with more than its own data: the modifiers of its group, the escape character
of the settings, and for a literal candidate user the groups that the compiled query has for the
user.  With the same modifiers and settings it has the same outcome in every compiled query.

* `pairwise_sortedTexts` says that the groups of a user are in ascending order.
* `Criteria.Expands` says that a compiled query has the groups of the candidate users of a group,
  and `expands_of_compile` that a query has them for all its groups when it is compiled.
* `filterOutcome_congr` compares the outcome of a filter in two groups of two queries, and
  `ownOutcomes_congr` all outcomes of one group in two queries.
-/

namespace Worklist

/-! ## Candidate users and their groups -/

theorem mem_sortedTexts {texts : List String} {s : String} : s ∈ sortedTexts texts ↔ s ∈ texts := by
  rw [sortedTexts, List.mem_mergeSort, List.mem_eraseDups]

/-- A list without its repetitions holds nothing twice.  What is left behind the first element is a
shorter list, so the recursion is on the length. -/
theorem nodup_eraseDups (texts : List String) : texts.eraseDups.Nodup := by
  induction hlength : texts.length using Nat.strongRecOn generalizing texts with
  | _ n ih =>
    cases texts with
    | nil => exact List.nodup_nil
    | cons s texts =>
      rw [List.eraseDups_cons, List.nodup_cons, List.mem_eraseDups]
      have hshorter : (texts.filter fun other => !other == s).length < n := by
        rw [← hlength, List.length_cons]
        exact Nat.lt_succ_of_le (List.length_filter_le _ _)
      exact ⟨by simp, ih _ hshorter _ rfl⟩

/-- Sorted texts ascend. -/
theorem pairwise_sortedTexts (texts : List String) : (sortedTexts texts).Pairwise (· < ·) := by
  have hsorted : (sortedTexts texts).Pairwise fun a b => decide (a ≤ b) = true := by
    refine List.pairwise_mergeSort ?_ ?_ _
    · simpa using fun a b c => String.le_trans
    · simpa using String.le_total
  have hdistinct : (sortedTexts texts).Nodup :=
    (List.mergeSort_perm _ _).nodup_iff.2 (nodup_eraseDups texts)
  refine (hsorted.and hdistinct).imp fun {a b} h => ?_
  rw [← Decidable.not_not (p := a < b), String.not_lt]
  exact fun hle => h.2 (String.le_antisymm (of_decide_eq_true h.1) hle)

/-- A table that is made from its keys has an entry for each of them. -/
theorem lookup_map_pair {α β : Type} [BEq α] [LawfulBEq α] (g : α → β) {a : α} {keys : List α}
    (h : a ∈ keys) : (keys.map fun k => (k, g k)).lookup a = some (g a) := by
  induction keys with
  | nil => cases h
  | cons k keys ih =>
    rw [List.map_cons, List.lookup_cons]
    split
    · rename_i heq
      rw [eq_of_beq heq]
    · rename_i hne
      rcases List.mem_cons.1 h with rfl | h
      · rw [beq_self_eq_true] at hne
        cases hne
      · exact ih h

/-- The groups that a literal candidate user also stands for. -/
def expansion (identity : IdentityResolver) (config : Config) (user : String) : List String :=
  if config.expandCandidateGroups then sortedTexts (identity user) else []

/-- The literal candidate users of each node are candidate users of the tree. -/
theorem Tree.mem_candidateUsers {t : Tree} {n : Node} {user : String} (hn : n ∈ t.nodes.toList)
    (hu : .text user ∈ n.predicates.termsOf .candidateUser) : user ∈ t.candidateUsers := by
  rw [candidateUsers, List.mem_flatMap]
  exact ⟨n, hn, List.mem_filterMap.2 ⟨.text user, hu, rfl⟩⟩

/-- Two groups have the same modifiers. -/
def PredicateSet.SameModifiers (s s' : PredicateSet) : Prop :=
  ∀ f : Flag, f.isModifier = true → s.hasFlag f = s'.hasFlag f

namespace Criteria

variable {identity : IdentityResolver} {config : Config} {c c' : Criteria} {s s' : PredicateSet}
  {resolve : ExpressionResolver} {task : Task}

/-- A compiled query has the groups of all literal candidate users of a group. -/
def Expands (c : Criteria) (identity : IdentityResolver) (config : Config) (s : PredicateSet) :
    Prop :=
  ∀ user, .text user ∈ s.termsOf .candidateUser → c.groupsOf user = expansion identity config user

theorem eq_compiled {q : Query} (hc : q.compile identity config = .ok c) :
    c = q.compiled identity config c.slots := by
  obtain ⟨⟨⟩, -, hc⟩ := bind_eq_ok.1 hc
  obtain ⟨slots, -, hc⟩ := bind_eq_ok.1 hc
  cases hc
  rfl

theorem expands_of_compile {q : Query} (hc : q.compile identity config = .ok c) :
    ∀ n ∈ c.tree.nodes.toList, c.Expands identity config n.predicates := by
  rw [eq_compiled hc]
  intro n hn user hu
  have huser : user ∈ q.tree.candidateUsers := Tree.mem_candidateUsers hn hu
  rw [groupsOf, expansion, Query.compiled]
  simp only
  split
  · rw [lookup_map_pair (fun user => sortedTexts (identity user)) (mem_sortedTexts.2 huser)]
    rfl
  · rfl

/-- A compiled query has the groups of the candidate users at each position. -/
theorem expands_node_of_compile {q : Query} (hc : q.compile identity config = .ok c) (id : Nat) :
    c.Expands identity config (c.tree.node id).predicates := by
  rcases Nat.lt_or_ge id c.tree.size with hlt | hge
  · refine expands_of_compile hc _ ?_
    rw [← Tree.length_toList] at hlt
    rw [Tree.node_eq_toList, List.getElem?_eq_getElem hlt]
    exact List.getElem_mem hlt
  · have hnone : c.tree.nodes[id]? = none := Array.getElem?_eq_none_iff.2 hge
    rw [Tree.node, hnone]
    intro user huser
    cases huser

/-! ## The outcome of a filter -/

theorem seesCandidates_congr
    (h : s.hasFlag .includeAssignedTasks = s'.hasFlag .includeAssignedTasks) (task : Task) :
    seesCandidates s task = seesCandidates s' task := by
  rw [seesCandidates, seesCandidates, h]

/-- The groups of a user only count for a candidate user. -/
theorem compareCandidates_congr {d : Dimension} {t : Term} {groups groups' : List String}
    (h : d = .candidateUser → ∀ user, t = .text user → groups = groups') (task : Task) :
    compareCandidates d t groups task = compareCandidates d t groups' task := by
  unfold compareCandidates
  split
  · rw [h rfl _ rfl]
  · rfl
  · rfl
  · rfl

theorem dimensionOutcome_congr {d : Dimension} {t : Term} {groups groups' : List String}
    (hs : s.hasFlag .includeAssignedTasks = s'.hasFlag .includeAssignedTasks)
    (h : d = .candidateUser → ∀ user, t = .text user → groups = groups') (escape : Char)
    (task : Task) :
    dimensionOutcome s d t groups escape task = dimensionOutcome s' d t groups' escape task := by
  unfold dimensionOutcome
  split
  · rw [seesCandidates_congr hs, compareCandidates_congr h]
  · rfl
  · rfl

theorem flagOutcome_congr (h : s.hasFlag .includeAssignedTasks = s'.hasFlag .includeAssignedTasks)
    (task : Task) (f : Flag) : flagOutcome s task f = flagOutcome s' task f := by
  unfold flagOutcome
  rw [seesCandidates_congr h]

theorem variableOutcome_congr (h : s.SameModifiers s') (p : VariablePredicate) (escape : Char)
    (task : Task) : variableOutcome s p escape task = variableOutcome s' p escape task := by
  unfold variableOutcome
  rw [h .matchVariableNamesIgnoreCase rfl, h .matchVariableValuesIgnoreCase rfl]

/-- A filter of two groups with the same modifiers has the same outcome in queries that know its
candidate users. -/
theorem filterOutcome_congr (hescape : c.likeEscape = c'.likeEscape)
    (hc : c.Expands identity config s) (hc' : c'.Expands identity config s')
    (hs : s.SameModifiers s') {x : Filter} (hx : x ∈ s.filters) (hx' : x ∈ s'.filters) :
    c.filterOutcome resolve task s x = c'.filterOutcome resolve task s' x := by
  have hinclude := hs .includeAssignedTasks rfl
  cases x with
  | term d t =>
    rw [filterOutcome, filterOutcome, termOutcome, termOutcome, hescape]
    refine dimensionOutcome_congr hinclude ?_ _ _
    -- only a literal candidate user looks at groups, and both queries have those of the user
    rintro rfl user rfl
    rw [PredicateSet.mem_filters_term] at hx hx'
    exact (hc user hx).trans (hc' user hx').symm
  | expression d e =>
    rw [filterOutcome, filterOutcome, expressionOutcome, expressionOutcome, hescape]
    congr 1
    funext r
    congr 1
    funext t
    exact dimensionOutcome_congr hinclude (fun _ _ _ => rfl) _ _
  | flag f => rw [filterOutcome, filterOutcome, flagOutcome_congr hinclude]
  | onVariable p => rw [filterOutcome, filterOutcome, variableOutcome_congr hs, hescape]

/-- All outcomes of a group are the same in queries that know its candidate users. -/
theorem ownOutcomes_congr (hescape : c.likeEscape = c'.likeEscape)
    (hc : c.Expands identity config s) (hc' : c'.Expands identity config s) :
    c.ownOutcomes resolve task s = c'.ownOutcomes resolve task s := by
  rw [ownOutcomes_eq, ownOutcomes_eq]
  exact mapM_congr fun x hx => filterOutcome_congr hescape hc hc' (fun _ _ => rfl) hx hx

end Criteria

end Worklist
