import Worklist.Proofs.Criteria.Expansion
import Worklist.Proofs.Criteria.Failures

/-!
# Candidate users

A compiled query keeps one table of the groups of its candidate users, which serves all its groups.
A literal candidate user is looked up in it twice: when the condition for the literal is written and
when the literal is evaluated.  An expression is looked up in neither place, although it can resolve
to a user of the table.

* `params_candidateUser` says what the condition for a candidate user binds, and
  `dimensionOutcome_candidateUser` what the evaluation gives, both for any groups.
* `candidate_users_expanded` puts in the groups that a reachable query has.
-/

namespace Worklist

open Sql

/-! ## Any groups -/

section Groups

variable (s : PredicateSet) (groups : List String) (escape : Char)

theorem params_candidateCondition (link : Condition) :
    (candidateCondition s link).params = link.params := by
  rw [candidateCondition]
  split <;> simp [candidateLink, Condition.params, paramsOfAll, Expr.params]

theorem params_candidateUserLink (user : Param) :
    (candidateUserLink user groups).params = user :: groups.map .text := by
  have hoptions : (groups.map fun g => Expr.marks [.text g]).flatMap Expr.params =
      groups.map .text := by
    rw [List.flatMap_map]
    exact List.map_eq_flatMap.symm
  rw [candidateUserLink]
  split
  · rename_i hnone
    rw [List.isEmpty_iff.1 hnone]
    rfl
  · simp only [Condition.params, paramsOfAll, Expr.params, hoptions, List.nil_append,
      List.append_nil, List.singleton_append]

/-- The condition for a candidate user binds the user and then the groups. -/
theorem params_candidateUser (user : Param) :
    (boundCondition s .candidateUser [user] groups escape).params = user :: groups.map .text := by
  rw [boundCondition, params_candidateCondition, List.headD_cons, params_candidateUserLink]

/-- A candidate user has an outcome for every task: whether the task is seen and is linked to the
user or to one of the groups. -/
theorem dimensionOutcome_candidateUser (user : String) (task : Task) :
    ∃ b, dimensionOutcome s .candidateUser (.text user) groups escape task = .ok b ∧
      (b = true ↔ (task.assignee = none ∨ s.hasFlag .includeAssignedTasks = true) ∧
        (user ∈ task.candidateUsers ∨ ∃ group ∈ task.candidateGroups, group ∈ groups)) := by
  refine ⟨seesCandidates s task &&
    (task.candidateUsers.contains user || task.candidateGroups.any groups.contains), ?_, ?_⟩
  · rw [dimensionOutcome_candidate rfl, compareCandidates]
    cases seesCandidates s task <;> rfl
  · rw [Bool.and_eq_true, seesCandidates_iff, Bool.or_eq_true, List.any_eq_true]
    simp only [List.contains_iff_mem]

end Groups

/-- Texts in ascending order are determined by which they are. -/
theorem eq_of_ascending {texts others : List String} (h : texts.Pairwise (· < ·))
    (hothers : others.Pairwise (· < ·)) (hmem : ∀ s, s ∈ texts ↔ s ∈ others) : texts = others := by
  have hdistinct : ∀ {xs : List String}, xs.Pairwise (· < ·) → xs.Nodup := by
    intro xs hxs
    refine hxs.imp fun {a b} hlt => ?_
    rintro rfl
    exact String.lt_irrefl a hlt
  have hperm : texts.Perm others :=
    (List.perm_ext_iff_of_nodup (hdistinct h) (hdistinct hothers)).2 hmem
  exact hperm.eq_of_pairwise (fun _ _ _ _ hab hba => absurd hba (String.lt_asymm hab)) h hothers

theorem mem_expansion {identity : IdentityResolver} {config : Config} {user group : String} :
    group ∈ expansion identity config user ↔
      config.expandCandidateGroups = true ∧ group ∈ identity user := by
  rw [expansion]
  split
  · rename_i hon
    rw [mem_sortedTexts, hon, and_iff_right rfl]
  · rename_i hoff
    exact iff_of_false List.not_mem_nil fun h => hoff h.1

theorem pairwise_expansion (identity : IdentityResolver) (config : Config) (user : String) :
    (expansion identity config user).Pairwise (· < ·) := by
  rw [expansion]
  split
  · exact pairwise_sortedTexts _
  · exact List.Pairwise.nil

namespace Criteria

/-! ## The groups of a compiled query -/

/-- Candidate users are expanded exactly where they are literal.

At any position of a reachable query that compiles, every literal value for the candidate user is a
user.  Its outcome is true exactly if the task is seen by the group at this position and is linked to
the user or, when users are expanded, to a group of the user; and its condition binds the user and
behind it, in ascending order, the groups of the user if users are expanded.

An expression binds itself alone.  When it resolves to a user, only the links of the user count,
even if the same user is a literal elsewhere in the query. -/
theorem candidate_users_expanded {q : Query} (hq : q.Reachable) {identity : IdentityResolver}
    {config : Config} {c : Criteria} (hc : q.compile identity config = .ok c)
    (resolve : ExpressionResolver) (task : Task) (id : NodeId) :
    let s := (c.tree.node id).predicates
    (∀ t ∈ s.termsOf .candidateUser, ∃ user, t = .text user ∧
      (∃ b, c.termOutcome task s .candidateUser t = .ok b ∧
        (b = true ↔ (task.assignee = none ∨ s.hasFlag .includeAssignedTasks = true) ∧
          (user ∈ task.candidateUsers ∨ config.expandCandidateGroups = true ∧
            ∃ group ∈ task.candidateGroups, group ∈ identity user))) ∧
      ∃ groups : List String,
        (c.termCondition s .candidateUser t).params = .text user :: groups.map .text ∧
        groups.Pairwise (· < ·) ∧
        ∀ group, group ∈ groups ↔ config.expandCandidateGroups = true ∧ group ∈ identity user) ∧
    ∀ e, s.expressionOf? .candidateUser = some e →
      (c.expressionCondition s .candidateUser e).params = [.expression e] ∧
      ∀ user, resolve e = .ok (.text user) →
        ∃ b, c.expressionOutcome resolve task s .candidateUser e = .ok b ∧
          (b = true ↔ (task.assignee = none ∨ s.hasFlag .includeAssignedTasks = true) ∧
            user ∈ task.candidateUsers) := by
  intro s
  obtain ⟨_, _, hlays⟩ := hq.lays hc
  refine ⟨fun t ht => ?_, fun e _ => ⟨?_, fun user hresolve => ?_⟩⟩
  · obtain ⟨hkind, -⟩ := ((hlays.sound_node id).entry .candidateUser).fits t ht
    cases t <;> cases hkind
    rename_i user
    have hgroups : c.groupsOf user = expansion identity config user :=
      expands_node_of_compile hc id user ht
    refine ⟨user, rfl, ?_, expansion identity config user, ?_, pairwise_expansion _ _ _,
      fun group => mem_expansion⟩
    · obtain ⟨b, hb, htrue⟩ :=
        dimensionOutcome_candidateUser s (c.groupsOf user) c.likeEscape user task
      refine ⟨b, hb, htrue.trans ?_⟩
      simp only [hgroups, mem_expansion, and_left_comm, exists_and_left]
    · rw [← hgroups]
      exact params_candidateUser s (c.groupsOf user) c.likeEscape (.text user)
  · exact params_candidateUser s [] c.likeEscape (.expression e)
  · obtain ⟨b, hb, htrue⟩ := dimensionOutcome_candidateUser s [] c.likeEscape user task
    refine ⟨b, (expressionOutcome_of_resolved hresolve rfl).trans hb, htrue.trans ?_⟩
    simp

/-- One user as a literal in two groups and behind an expression in a third, and an assigned task that
is linked to a group of the user.  The last two groups see the task, and only the literal matches. -/
theorem candidate_users_expanded_built :
    ∃ (q : Query) (c : Criteria), q.Reachable ∧
      q.compile (fun _ => ["staff", "night"]) {} = .ok c ∧
      let resolve : ExpressionResolver := fun _ => .ok (.text "ada")
      let task : Task := { assignee := some "bob", candidateGroups := ["staff"] }
      let s := fun id => (c.tree.node id).predicates
      c.termOutcome task (s 2) .candidateUser (.text "ada") = .ok false ∧
      c.termOutcome task (s 3) .candidateUser (.text "ada") = .ok true ∧
      (c.termCondition (s 3) .candidateUser (.text "ada")).params =
        [.text "ada", .text "night", .text "staff"] ∧
      (s 4).hasFlag .includeAssignedTasks = true ∧
      c.expressionOutcome resolve task (s 4) .candidateUser "user" = .ok false ∧
      (c.expressionCondition (s 4) .candidateUser "user").params = [.expression "user"] := by
  let q := Query.built [.openGroup .or,
    .openGroup .and, .setTerm .candidateUser (.text "ada") rfl, .closeGroup .and,
    .openGroup .and, .setTerm .candidateUser (.text "ada") rfl, .setFlag .includeAssignedTasks,
    .closeGroup .and,
    .openGroup .and, .setExpression .candidateUser "user" rfl, .setFlag .includeAssignedTasks,
    .closeGroup .and, .closeGroup .or]
  have hok : (q.compile (fun _ => ["staff", "night"]) {}).toOption.isSome = true := by
    decide +kernel
  have hliterals : ∀ id ∈ [2, 3],
      .text "ada" ∈ (q.tree.node id).predicates.termsOf .candidateUser := by decide +kernel
  have hexpression : (q.tree.node 4).predicates.expressionOf? .candidateUser = some "user" := by
    decide +kernel
  have hexcludes : (q.tree.node 2).predicates.hasFlag .includeAssignedTasks = false := by
    decide +kernel
  have hincludes : ∀ id ∈ [3, 4],
      (q.tree.node id).predicates.hasFlag .includeAssignedTasks = true := by decide +kernel
  have hq : q.Reachable := Query.reachable_built _
  obtain ⟨c, hc⟩ := Option.isSome_iff_exists.1 hok
  rw [toOption_eq_some] at hc
  obtain ⟨-, -, htree, -⟩ := Query.compile_eq_ok hc
  rw [← htree] at hliterals hexpression hexcludes hincludes
  have hexpanded := candidate_users_expanded hq hc (fun _ => .ok (.text "ada"))
    { assignee := some "bob", candidateGroups := ["staff"] }
  obtain ⟨_, ⟨⟩, ⟨unseen, hunseen, hunseenTrue⟩, -⟩ :=
    (hexpanded 2).1 _ (hliterals 2 List.mem_cons_self)
  obtain ⟨_, ⟨⟩, ⟨seen, hseen, hseenTrue⟩, groups, hparams, hascending, hgroups⟩ :=
    (hexpanded 3).1 _ (hliterals 3 (List.mem_cons_of_mem _ List.mem_cons_self))
  obtain ⟨hexpressionParams, hresolved⟩ := (hexpanded 4).2 _ hexpression
  obtain ⟨direct, hdirect, hdirectTrue⟩ := hresolved "ada" rfl
  have hnight : groups = ["night", "staff"] :=
    eq_of_ascending hascending (by decide) fun group => by
      rw [hgroups]
      simp [or_comm]
  refine ⟨q, c, hq, hc, ?_, ?_, ?_, hincludes 4 ?_, ?_, hexpressionParams⟩
  · obtain rfl : unseen = false := by
      rw [← Bool.not_eq_true, hunseenTrue, hexcludes]
      simp
    exact hunseen
  · obtain rfl := hseenTrue.2 ⟨.inr (hincludes 3 List.mem_cons_self),
      .inr ⟨rfl, "staff", by decide, by decide⟩⟩
    exact hseen
  · rw [hparams, hnight]
    rfl
  · exact List.mem_cons_of_mem _ List.mem_cons_self
  · obtain rfl : direct = false := by
      rw [← Bool.not_eq_true, hdirectTrue]
      simp
    exact hdirect

end Criteria

end Worklist
