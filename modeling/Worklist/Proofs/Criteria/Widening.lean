import Worklist.Proofs.Criteria.Failures
import Worklist.Proofs.Criteria.Monotone
import Worklist.Proofs.Query.Assigned

/-!
# A wider view of candidates

Candidate filters only see a task that is assigned if their group includes assigned tasks, and a
candidate user also stands for the groups that the user was expanded to.  No filter uses either of
the two against a task, so a query that sees more candidates holds of more tasks.

* `Criteria.Widens` relates a group of one compiled query to the same group in one that sees more.
  `Widens.filterOutcome` is the step: a filter that holds goes on doing so, one lemma for each kind of
  filter.
* `Lays.holds_of_widens` carries it to whole queries.
* `Evaluates.congr` says that the groups of candidate users have no part in what fails.
* `wider_view_keeps` is the result for the three ways in which the view can be widened.
-/

namespace Worklist

/-! ## Dimensions -/

section Dimensions

variable {s s' : PredicateSet} {d : Dimension} {t : Term} {groups groups' : List String}
  {escape : Char} {task : Task}

theorem seesCandidates_mono
    (h : s.hasFlag .includeAssignedTasks = true → s'.hasFlag .includeAssignedTasks = true)
    (hsees : seesCandidates s task = true) : seesCandidates s' task = true := by
  rw [seesCandidates_iff] at hsees ⊢
  exact hsees.imp_right h

/-- More groups of a candidate user only help. -/
theorem compareCandidates_mono
    (h : d = .candidateUser → ∀ user, t = .text user → ∀ group ∈ groups, group ∈ groups')
    (htrue : compareCandidates d t groups task = .ok true) :
    compareCandidates d t groups' task = .ok true := by
  unfold compareCandidates at htrue ⊢
  split at htrue
  · rename_i user
    rw [Except.ok.injEq, Bool.or_eq_true, List.any_eq_true] at htrue ⊢
    refine htrue.imp_right ?_
    rintro ⟨group, hlinked, hgroup⟩
    rw [List.contains_iff_mem] at hgroup
    exact ⟨group, hlinked, List.contains_iff_mem.2 (h rfl user rfl group hgroup)⟩
  · exact htrue
  · exact htrue
  · cases htrue

/-- Only candidate filters look at the group and at the groups of users. -/
theorem dimensionOutcome_of_not_candidate (hd : d.isCandidate = false) :
    dimensionOutcome s d t groups escape task = dimensionOutcome s' d t groups' escape task := by
  rcases d.compared with hcandidate | rfl | ⟨-, hcomparison⟩
  · rw [hd] at hcandidate
    cases hcandidate
  · cases t <;> rfl
  · rw [dimensionOutcome_column hcomparison, dimensionOutcome_column hcomparison]

theorem dimensionOutcome_mono
    (hs : s.hasFlag .includeAssignedTasks = true → s'.hasFlag .includeAssignedTasks = true)
    (h : d = .candidateUser → ∀ user, t = .text user → ∀ group ∈ groups, group ∈ groups')
    (htrue : dimensionOutcome s d t groups escape task = .ok true) :
    dimensionOutcome s' d t groups' escape task = .ok true := by
  cases hd : d.isCandidate with
  | false => rw [← htrue, dimensionOutcome_of_not_candidate hd]
  | true =>
    rw [dimensionOutcome_candidate hd] at htrue ⊢
    split at htrue
    · rename_i hsees
      rw [if_pos (seesCandidates_mono hs hsees)]
      exact compareCandidates_mono h htrue
    · cases htrue

/-- The switches against candidates do not look at what the group sees. -/
theorem flagOutcome_mono
    (hs : s.hasFlag .includeAssignedTasks = true → s'.hasFlag .includeAssignedTasks = true)
    {f : Flag} (htrue : flagOutcome s task f = true) : flagOutcome s' task f = true := by
  cases f with
  | withCandidateGroups =>
    rw [flagOutcome, Bool.and_eq_true] at htrue ⊢
    exact htrue.imp_left (seesCandidates_mono hs)
  | withCandidateUsers =>
    rw [flagOutcome, Bool.and_eq_true] at htrue ⊢
    exact htrue.imp_left (seesCandidates_mono hs)
  | _ => exact htrue

end Dimensions

namespace Criteria

variable {c c' : Criteria} {resolve : ExpressionResolver} {task : Task} {s s' : PredicateSet}
  {f f' : Forest} {identity identity' : IdentityResolver} {config config' : Config}

/-! ## Filters -/

/-- A group has the same filters in a second query, which sees at least the candidates that the first
one sees. -/
structure Widens (c c' : Criteria) (s s' : PredicateSet) : Prop where
  escape : c'.likeEscape = c.likeEscape
  filters : s'.filters = s.filters
  assigned : s.hasFlag .includeAssignedTasks = true → s'.hasFlag .includeAssignedTasks = true
  modifiers : ∀ f : Flag, f ≠ .includeAssignedTasks → s'.hasFlag f = s.hasFlag f
  groups : ∀ user, .text user ∈ s.termsOf .candidateUser →
    ∀ group ∈ c.groupsOf user, group ∈ c'.groupsOf user

/-- The step: a filter that holds also does in the second query. -/
theorem Widens.filterOutcome (h : c.Widens c' s s') {x : Filter} (hx : x ∈ s.filters)
    (htrue : c.filterOutcome resolve task s x = .ok true) :
    c'.filterOutcome resolve task s' x = .ok true := by
  cases x with
  | term d t =>
    rw [Criteria.filterOutcome, termOutcome] at htrue ⊢
    rw [h.escape]
    refine dimensionOutcome_mono h.assigned ?_ htrue
    rintro rfl user rfl
    exact h.groups user (PredicateSet.mem_filters_term.1 hx)
  | expression d e =>
    rw [Criteria.filterOutcome, expressionOutcome] at htrue ⊢
    obtain ⟨r, hr, htrue⟩ := bind_eq_ok.1 htrue
    obtain ⟨t, ht, htrue⟩ := bind_eq_ok.1 htrue
    rw [hr, ok_bind, ht, ok_bind, h.escape]
    exact dimensionOutcome_mono h.assigned (fun _ _ _ _ hgroup => hgroup) htrue
  | flag f =>
    rw [Criteria.filterOutcome, Except.ok.injEq] at htrue ⊢
    exact flagOutcome_mono h.assigned htrue
  | onVariable p =>
    rw [Criteria.filterOutcome] at htrue ⊢
    rw [← htrue, h.escape, variableOutcome, variableOutcome, h.modifiers _ (by decide),
      h.modifiers _ (by decide)]

/-! ## Queries -/

/-- A query that holds also does if it sees more candidates in each of its groups. -/
theorem Lays.holds_of_widens (h : c.Lays s f) (h' : c'.Lays s' f')
    (hconnective : ∀ id : Nat, (c'.tree.node id).connective = (c.tree.node id).connective)
    (hchildren : ∀ id : Nat, (c'.tree.node id).children = (c.tree.node id).children)
    (hwidens : ∀ id : Nat, c.Widens c' (c.tree.node id).predicates (c'.tree.node id).predicates)
    (he' : ∀ id, c'.Evaluates resolve task (c'.tree.node id).predicates)
    (htrue : c.holds resolve task = .ok true) : c'.holds resolve task = .ok true := by
  refine h.holds_mono h' he' (fun id => ?_) htrue
  exact yields_of_filters (hconnective id) (hchildren id) (hwidens id).filters fun x hx =>
    (hwidens id).filterOutcome hx

/-- What a sound group fails on does not depend on the compiled query around it. -/
theorem Evaluates.congr {k : Connective} (hs : s.Sound k) (h : c.Evaluates resolve task s) :
    c'.Evaluates resolve task s :=
  Classical.byContradiction fun hnot =>
    (not_evaluates_iff hs).2 ((not_evaluates_iff hs).1 hnot) h

/-- A query also holds with other groups of candidate users if they are at least those that it
had. -/
theorem holds_of_expansion {q : Query} (hq : q.Reachable) (hc : q.compile identity config = .ok c)
    (hc' : q.compile identity' config' = .ok c') (hescape : config'.likeEscape = config.likeEscape)
    (hgroups : ∀ user, ∀ group ∈ expansion identity config user,
      group ∈ expansion identity' config' user)
    (htrue : c.holds resolve task = .ok true) : c'.holds resolve task = .ok true := by
  obtain ⟨s, f, h⟩ := hq.lays hc
  obtain ⟨s', f', h'⟩ := hq.lays hc'
  obtain ⟨-, -, htree, hlike⟩ := Query.compile_eq_ok hc
  obtain ⟨-, -, htree', hlike'⟩ := Query.compile_eq_ok hc'
  have hsame : c'.tree = c.tree := htree'.trans htree.symm
  have hevaluates := (h.holds_eq_true.1 htrue).1
  refine h.holds_of_widens h' ?_ ?_ (fun id => ?_) (fun id => ?_) htrue
  · exact fun id => by rw [hsame]
  · exact fun id => by rw [hsame]
  · have hexpands := expands_node_of_compile hc id
    have hexpands' := expands_node_of_compile hc' id
    rw [hsame] at hexpands' ⊢
    refine ⟨?_, rfl, fun hflag => hflag, fun _ _ => rfl, fun user huser => ?_⟩
    · rw [hlike, hlike', hescape]
    · rw [hexpands user huser, hexpands' user huser]
      exact hgroups user
  · rw [hsame]
    exact (hevaluates id).congr (h.sound_node id)

/-- Including assigned tasks widens a group. -/
theorem widens_withAssignedTasks (hescape : c'.likeEscape = c.likeEscape)
    (hc : c.Expands identity config s) (hc' : c'.Expands identity config s')
    (hs : s' = s ∨ s' = s.withAssignedTasks) : c.Widens c' s s' := by
  have hterms : s'.termsOf = s.termsOf := by
    rcases hs with rfl | rfl
    · rfl
    · obtain ⟨flags, heq⟩ := s.withAssignedTasks_eq
      rw [heq]
      rfl
  refine ⟨hescape, ?_, fun hflag => ?_, fun f hf => ?_, fun user huser => ?_⟩
  · rcases hs with rfl | rfl
    · rfl
    · exact s.filters_withAssignedTasks
  · rcases hs with rfl | rfl
    · exact hflag
    · exact PredicateSet.hasFlag_withAssignedTasks_of_hasFlag hflag
  · rcases hs with rfl | rfl
    · rfl
    · exact PredicateSet.hasFlag_withAssignedTasks hf
  · rw [hc user huser, hc' user (hterms ▸ huser)]
    exact fun _ hgroup => hgroup

/-- A query that holds also does with assigned tasks included in one more group, unless an expression
fails then. -/
theorem holds_of_withAssignedTasks {q : Query} (hq : q.Reachable) {id : Nat}
    (hc : q.compile identity config = .ok c)
    (hc' : (q.withAssignedTasks id).compile identity config = .ok c')
    (htrue : c.holds resolve task = .ok true) {b : Bool} (hb : c'.holds resolve task = .ok b) :
    b = true := by
  obtain ⟨s, f, h⟩ := hq.lays hc
  obtain ⟨s', f', h'⟩ := (hq.withAssignedTasks id).lays hc'
  obtain ⟨-, -, htree, hlike⟩ := Query.compile_eq_ok hc
  obtain ⟨-, -, htree', hlike'⟩ := Query.compile_eq_ok hc'
  have hsame : c'.tree = c.tree.modifyPredicates id PredicateSet.withAssignedTasks := by
    rw [htree, htree', Query.withAssignedTasks]
  have hshape := c.tree.shape_modifyPredicates id PredicateSet.withAssignedTasks
  have he' := h'.forall_evaluates.1 ((exists_holds_eq_ok h'.tree).1 ⟨b, hb⟩)
  have hholds : c'.holds resolve task = .ok true := by
    refine h.holds_of_widens h' (fun i => ?_) (fun i => ?_) (fun i => ?_) he' htrue
    · rw [hsame]
      exact (hshape i).1
    · rw [hsame]
      exact (hshape i).2.2
    · refine widens_withAssignedTasks (hlike'.trans hlike.symm) (expands_node_of_compile hc i)
        (expands_node_of_compile hc' i) ?_
      rw [hsame]
      exact (c.tree.node_modifyPredicates_or id PredicateSet.withAssignedTasks i).imp
        (congrArg Node.predicates) fun hchanged => congrArg Node.predicates hchanged.2
  rw [hholds, Except.ok.injEq] at hb
  exact hb.symm

end Criteria

/-! ## The result -/

namespace Query

variable {q : Query} {identity : IdentityResolver} {config : Config} {c : Criteria}

/-- The query with another group as the current one. -/
def movedTo (q : Query) (id : NodeId) : Query := { q with current := id }

/-- The call on a group that need not be the current one. -/
theorem withAssignedTasks_of_apply {id : NodeId} {r : Query}
    (h : (q.movedTo id).apply (.setFlag .includeAssignedTasks) = .ok r) :
    r.movedTo q.current = q.withAssignedTasks id := by
  rw [apply_includeAssignedTasks] at h
  split at h
  · cases h
    rfl
  · cases h

/-- With expansion of candidate users switched on, or with more groups for each user, a candidate
user stands for more groups. -/
theorem expansion_mono {identity' : IdentityResolver} {config' : Config}
    (hexpand : config.expandCandidateGroups = true → config'.expandCandidateGroups = true)
    (hidentity : ∀ user, ∀ group ∈ identity user, group ∈ identity' user) (user : String) :
    ∀ group ∈ expansion identity config user, group ∈ expansion identity' config' user := by
  intro group hgroup
  rw [expansion] at hgroup ⊢
  split at hgroup
  · rename_i hon
    rw [if_pos (hexpand hon), mem_sortedTexts]
    exact hidentity user group (mem_sortedTexts.1 hgroup)
  · cases hgroup

/-- A wider view of candidates loses no task.  A task that a compiled query matches is still matched

* when assigned tasks are included in any group, below the root or not, that the call is accepted
  in, unless the evaluation fails then.  Such a query can be built and compiles;
* when candidate users are expanded to their groups and were not before;
* when the resolver of identities gives every user at least the groups that it gave before.

In the last two cases the evaluation does not fail. -/
theorem wider_view_keeps (hq : q.Reachable) (hc : q.compile identity config = .ok c) :
    (∀ id r, (q.movedTo id).apply (.setFlag .includeAssignedTasks) = .ok r →
      (r.movedTo q.current).Reachable ∧
        ∃ c', (r.movedTo q.current).compile identity config = .ok c' ∧
          ∀ resolve task, c.holds resolve task = .ok true →
            ∀ b, c'.holds resolve task = .ok b → b = true) ∧
    (config.expandCandidateGroups = false →
      ∃ c', q.compile identity { config with expandCandidateGroups := true } = .ok c' ∧
        ∀ resolve task, c.holds resolve task = .ok true → c'.holds resolve task = .ok true) ∧
    (∀ identity' : IdentityResolver, (∀ user, ∀ group ∈ identity user, group ∈ identity' user) →
      ∃ c', q.compile identity' config = .ok c' ∧
        ∀ resolve task, c.holds resolve task = .ok true → c'.holds resolve task = .ok true) := by
  refine ⟨fun id r hr => ?_, fun _ => ?_, fun identity' hidentity => ?_⟩
  · rw [withAssignedTasks_of_apply hr]
    obtain ⟨c', hc'⟩ := hq.exists_compile_withAssignedTasks hc id
    exact ⟨hq.withAssignedTasks id, c', hc', fun resolve task htrue b hb =>
      Criteria.holds_of_withAssignedTasks hq hc hc' htrue hb⟩
  · obtain ⟨c', hc'⟩ := hq.compile_of_compile hc identity
      { config with expandCandidateGroups := true }
    refine ⟨c', hc', fun resolve task htrue => ?_⟩
    exact Criteria.holds_of_expansion hq hc hc' rfl
      (expansion_mono (fun _ => rfl) fun _ _ hgroup => hgroup) htrue
  · obtain ⟨c', hc'⟩ := hq.compile_of_compile hc identity' config
    refine ⟨c', hc', fun resolve task htrue => ?_⟩
    exact Criteria.holds_of_expansion hq hc hc' rfl (expansion_mono (fun hon => hon) hidentity) htrue

/-- A candidate user in a closed OR group, and a task that it matches through the link of the user.
Assigned tasks are included in that group, the user is expanded, and the resolver knows one more
group. -/
theorem wider_view_keeps_built :
    let q := built [.openGroup .or, .setTerm .candidateUser (.text "ada") rfl,
      .setFlag .withoutDueDate, .closeGroup .or, .setFlag .withoutCandidateGroups]
    let config : Config := { expandCandidateGroups := false }
    let resolve : ExpressionResolver := fun x => .error (.unknownExpression x)
    let task : Task := { candidateUsers := ["ada"], dueDate := some Instant.epoch }
    ∃ (r : Query) (c ca ce ci : Criteria), q.Reachable ∧
      q.compile (fun _ => ["staff"]) config = .ok c ∧ c.holds resolve task = .ok true ∧
      ((q.movedTo 1).apply (.setFlag .includeAssignedTasks) = .ok r ∧
        (r.movedTo q.current).compile (fun _ => ["staff"]) config = .ok ca ∧
          ca.holds resolve task = .ok true) ∧
      (config.expandCandidateGroups = false ∧ q.compile (fun _ => ["staff"]) {} = .ok ce ∧
        ce.holds resolve task = .ok true) ∧
      (∀ group ∈ ["staff"], group ∈ ["night", "staff"]) ∧
        q.compile (fun _ => ["night", "staff"]) config = .ok ci ∧
          ci.holds resolve task = .ok true := by
  intro q config resolve task
  have hq : q.Reachable := reachable_built _
  have hcompiles : (q.compile (fun _ => ["staff"]) config).toOption.map
      (fun c => (c.holds resolve task).toOption) = some (some true) := by
    decide +kernel
  have haccepted : ((q.movedTo 1).apply (.setFlag .includeAssignedTasks)).toOption.map
      (fun r => ((r.movedTo q.current).compile (fun _ => ["staff"]) config).toOption.map
        fun c => (c.holds resolve task).toOption.isSome) = some (some true) := by
    decide +kernel
  have hgroups : ∀ group ∈ ["staff"], group ∈ ["night", "staff"] := by decide
  obtain ⟨c, hc, htrue⟩ := Option.map_eq_some_iff.1 hcompiles
  obtain ⟨r, hr, hevaluates⟩ := Option.map_eq_some_iff.1 haccepted
  obtain ⟨ca', hca', hb⟩ := Option.map_eq_some_iff.1 hevaluates
  obtain ⟨b, hb⟩ := Option.isSome_iff_exists.1 hb
  rw [toOption_eq_some] at hc htrue hr hca' hb
  obtain ⟨hassigned, hexpand, hidentity⟩ := wider_view_keeps hq hc
  obtain ⟨-, ca, hca, hkeeps⟩ := hassigned 1 r hr
  obtain ⟨ce, hce, hkeepsExpanded⟩ := hexpand rfl
  obtain ⟨ci, hci, hkeepsIdentity⟩ := hidentity (fun _ => ["night", "staff"]) fun _ => hgroups
  rw [hca', Except.ok.injEq] at hca
  subst hca
  have hcaTrue := hkeeps resolve task htrue b hb
  subst hcaTrue
  exact ⟨r, c, ca', ce, ci, hq, hc, htrue, ⟨hr, hca', hb⟩,
    ⟨rfl, hce, hkeepsExpanded resolve task htrue⟩, hgroups, hci,
    hkeepsIdentity resolve task htrue⟩

end Query

end Worklist
