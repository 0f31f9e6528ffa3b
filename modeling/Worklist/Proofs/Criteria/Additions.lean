import Worklist.Proofs.Criteria.Widening

/-!
# Alternatives and further conditions

A call that adds a filter to a group adds an alternative in an OR group and a condition in an AND
group.  The first matches more tasks and the second fewer, wherever in the tree the group is.  A call
may also replace what the group had, and then neither holds.

* `Edit.AddsAlternative` and `Edit.AddsCondition` say which calls only add.
* `PredicateSet.Extends` says that a group has all filters of another one and the same modifiers, and
  `extends_of_change` that such calls lead to such groups.
* `Criteria.Grown` relates two compiled queries of which the second has an extended group at one
  position.  `Grown.yields_of_or` and `Grown.yields_of_and` are the step for each connective, in
  opposite directions.
* `additions_ordered` is the result for the queries that are compiled after the open groups have been
  closed.
-/

namespace Worklist

/-! ## Calls that only add -/

namespace Edit

/-- A call that adds an alternative to an OR group with filters `s`: another value of a dimension
that takes several and has no expression, a switch that filters, or a variable. -/
def AddsAlternative (s : PredicateSet) : Edit → Prop
  | setTerm d _ _ => d.arity ≠ .single ∧ s.expressionOf? d = none
  | setFlag f => f.isModifier = false
  | addVariable _ => True
  | compareVariable .. => True
  | _ => False

/-- A call that adds a condition to an AND group with filters `s`: a value or an expression of a
dimension that has neither, a switch that filters, or a variable. -/
def AddsCondition (s : PredicateSet) : Edit → Prop
  | setTerm d _ _ => s.hasPredicate d = false
  | setExpression d _ _ => s.hasPredicate d = false
  | setFlag f => f.isModifier = false
  | addVariable _ => True
  | compareVariable .. => True
  | _ => False

/-- A call that adds is a call on filters. -/
theorem AddsAlternative.onFilters {s : PredicateSet} {e : Edit} (h : e.AddsAlternative s) :
    e.onFilters = true := by
  cases e <;> first | rfl | cases h

theorem AddsCondition.onFilters {s : PredicateSet} {e : Edit} (h : e.AddsCondition s) :
    e.onFilters = true := by
  cases e <;> first | rfl | cases h

end Edit

namespace PredicateSet

variable {s s' : PredicateSet} {c : Connective} {d : Dimension}

/-- A group has everything that another one has, and the same modifiers. -/
structure Extends (s s' : PredicateSet) : Prop where
  terms : ∀ d, ∀ t ∈ s.termsOf d, t ∈ s'.termsOf d
  expressions : ∀ d e, s.expressionOf? d = some e → s'.expressionOf? d = some e
  flags : ∀ f, s.hasFlag f = true → s'.hasFlag f = true
  modifiers : s.SameModifiers s'
  variablePredicates : ∀ p ∈ s.variablePredicates, p ∈ s'.variablePredicates

theorem Extends.mem_filters (h : s.Extends s') {x : Filter} (hx : x ∈ s.filters) :
    x ∈ s'.filters := by
  cases x with
  | term d t =>
    rw [mem_filters_term] at hx ⊢
    exact h.terms d t hx
  | expression d e =>
    rw [mem_filters_expression] at hx ⊢
    exact h.expressions d e hx
  | flag f =>
    rw [mem_filters_flag] at hx ⊢
    exact ⟨h.flags f hx.1, hx.2⟩
  | onVariable p =>
    rw [mem_filters_onVariable] at hx ⊢
    exact h.variablePredicates p hx

theorem hasPredicate_eq_false :
    s.hasPredicate d = false ↔ s.terms.get? d = none ∧ s.expressionOf? d = none := by
  rw [hasPredicate, Bool.or_eq_false_iff, Table.contains, Table.contains,
    Option.isSome_eq_false_iff, Option.isSome_eq_false_iff, Option.isNone_iff_eq_none,
    Option.isNone_iff_eq_none, expressionOf?]

/-! ### Each change -/

theorem termsOf_setTerm (s : PredicateSet) (d : Dimension) (t : Term) (c : Connective)
    (e : Dimension) : (s.setTerm d t c).termsOf e =
      if d = e then if replaces d c then [t] else s.termsOf d ++ [t] else s.termsOf e := by
  rw [termsOf, setTerm, Table.get?_set]
  split
  · rfl
  · rfl

theorem expressionOf?_setTerm (s : PredicateSet) (d : Dimension) (t : Term) (c : Connective)
    (e : Dimension) :
    (s.setTerm d t c).expressionOf? e = if d = e then none else s.expressionOf? e := by
  rw [expressionOf?, setTerm, Table.get?_erase]
  rfl

/-- A value extends a group if the dimension had no expression and the values that it had stay. -/
theorem extends_setTerm {t : Term} (hexpression : s.expressionOf? d = none)
    (hstay : replaces d c = true → s.termsOf d = []) : s.Extends (s.setTerm d t c) where
  terms e u hu := by
    rw [termsOf_setTerm]
    split
    · rename_i hd
      subst hd
      split
      · rename_i hreplaces
        rw [hstay hreplaces] at hu
        cases hu
      · exact List.mem_append_left _ hu
    · exact hu
  expressions e x hx := by
    rw [expressionOf?_setTerm]
    split
    · rename_i hd
      subst hd
      rw [hexpression] at hx
      cases hx
    · exact hx
  flags _ hf := hf
  modifiers _ _ := rfl
  variablePredicates _ hp := hp

/-- An expression extends a group if the dimension had neither a value nor an expression. -/
theorem extends_setExpression (h : s.hasPredicate d = false) (x : String) :
    s.Extends (s.setExpression d x) where
  terms e u hu := by
    rw [termsOf, setExpression, Table.get?_erase]
    split
    · rename_i hd
      subst hd
      rw [termsOf, (hasPredicate_eq_false.1 h).1] at hu
      cases hu
    · exact hu
  expressions e y hy := by
    rw [expressionOf?, setExpression, Table.get?_set]
    split
    · rename_i hd
      subst hd
      rw [(hasPredicate_eq_false.1 h).2] at hy
      cases hy
    · exact hy
  flags _ hf := hf
  modifiers _ _ := rfl
  variablePredicates _ hp := hp

theorem extends_setFlag {f : Flag} (h : f.isModifier = false) : s.Extends (s.setFlag f) where
  terms _ _ ht := ht
  expressions _ _ he := he
  flags g hg := by rw [hasFlag_setFlag, hg, Bool.or_true]
  modifiers g hg := by
    have hne : f ≠ g := by
      rintro rfl
      rw [h] at hg
      cases hg
    rw [hasFlag_setFlag, decide_eq_false hne, Bool.false_or]
  variablePredicates _ hp := hp

theorem extends_addVariable (p : VariablePredicate) : s.Extends (s.addVariable p) where
  terms _ _ ht := ht
  expressions _ _ he := he
  flags _ hf := hf
  modifiers _ _ := rfl
  variablePredicates _ hp := List.mem_append_left _ hp

/-! ### Calls -/

/-- A call for a value in an OR group replaces only a value of a dimension that takes one. -/
theorem replaces_or_eq_true : replaces d .or = true ↔ d.arity = .single := by
  rw [replaces, Bool.or_eq_true, beq_iff_eq]
  simp

theorem of_change_setTerm {t : Term} {fits : t.kind = d.termKind}
    (h : Edit.change c s (.setTerm d t fits) = .ok s') : s' = s.setTerm d t c := by
  rw [Edit.change] at h
  split at h
  · cases h
  · obtain ⟨⟨⟩, -, h⟩ := bind_eq_ok.1 h
    cases h
    rfl

theorem of_change_setFlag {f : Flag} (hf : f.isModifier = false)
    (h : Edit.change c s (.setFlag f) = .ok s') : s' = s.setFlag f := by
  have hne : f ≠ .includeAssignedTasks := by
    rintro rfl
    cases hf
  rw [Edit.change, if_neg hne] at h
  cases h
  rfl

theorem of_change_compareVariable {name : String} {operator : VariableOperator} {raw : RawValue}
    {scope : VariableScope} {isLocal : Bool}
    (h : Edit.change c s (.compareVariable name operator raw scope isLocal) = .ok s') :
    ∃ p, s' = s.addVariable p := by
  obtain ⟨p, -, h⟩ := bind_eq_ok.1 h
  cases h
  exact ⟨p, rfl⟩

/-- The filters of an OR group after an alternative has been added.  It is no expression. -/
theorem extends_of_addsAlternative {e : Edit} (h : e.AddsAlternative s)
    (hs' : e.change .or s = .ok s') :
    s.Extends s' ∧ ∀ d x, s'.expressionOf? d = some x → s.expressionOf? d = some x := by
  cases e with
  | setTerm d t fits =>
    obtain rfl := of_change_setTerm hs'
    refine ⟨extends_setTerm h.2 fun hreplaces => absurd (replaces_or_eq_true.1 hreplaces) h.1,
      fun e x hx => ?_⟩
    rw [expressionOf?_setTerm] at hx
    split at hx
    · cases hx
    · exact hx
  | setFlag f =>
    obtain rfl := of_change_setFlag h hs'
    exact ⟨extends_setFlag h, fun _ _ hx => hx⟩
  | addVariable p =>
    cases hs'
    exact ⟨extends_addVariable p, fun _ _ hx => hx⟩
  | compareVariable name operator raw scope isLocal =>
    obtain ⟨p, rfl⟩ := of_change_compareVariable hs'
    exact ⟨extends_addVariable p, fun _ _ hx => hx⟩
  | _ => cases h

/-- The filters of an AND group after a condition has been added. -/
theorem extends_of_addsCondition {e : Edit} (h : e.AddsCondition s)
    (hs' : e.change .and s = .ok s') : s.Extends s' := by
  cases e with
  | setTerm d t fits =>
    obtain rfl := of_change_setTerm hs'
    obtain ⟨hterms, hexpression⟩ := hasPredicate_eq_false.1 h
    refine extends_setTerm hexpression fun _ => ?_
    rw [termsOf, hterms]
    rfl
  | setExpression d x allowed =>
    obtain ⟨⟨⟩, -, hs'⟩ := bind_eq_ok.1 hs'
    cases hs'
    exact extends_setExpression h x
  | setFlag f =>
    obtain rfl := of_change_setFlag h hs'
    exact extends_setFlag h
  | addVariable p =>
    cases hs'
    exact extends_addVariable p
  | compareVariable name operator raw scope isLocal =>
    obtain ⟨p, rfl⟩ := of_change_compareVariable hs'
    exact extends_addVariable p
  | _ => cases h

end PredicateSet

/-! ## One extended group -/

namespace Criteria

variable {c c' : Criteria} {resolve : ExpressionResolver} {task : Task} {s s' : PredicateSet}
  {f f' : Forest} {identity : IdentityResolver} {config : Config} {id : NodeId}

/-- A second compiled query has an extended group in the place of one group, and is the first one
otherwise. -/
structure Grown (c c' : Criteria) (identity : IdentityResolver) (config : Config) (id : NodeId)
    (s' : PredicateSet) : Prop where
  escape : c.likeEscape = c'.likeEscape
  tree : c'.tree = c.tree.modifyPredicates id fun _ => s'
  expands : ∀ i : Nat, c.Expands identity config (c.tree.node i).predicates
  expands' : ∀ i : Nat, c'.Expands identity config (c'.tree.node i).predicates
  extended : (c.tree.node id).predicates.Extends s'

/-- Every group has the filters that it had, and its modifiers. -/
theorem Grown.extends (h : c.Grown c' identity config id s') (i : Nat) :
    (c.tree.node i).predicates.Extends (c'.tree.node i).predicates := by
  rw [h.tree]
  rcases c.tree.node_modifyPredicates_or id (fun _ => s') i with hi | ⟨rfl, hi⟩
  · rw [hi]
    exact ⟨fun _ _ h => h, fun _ _ h => h, fun _ h => h, fun _ _ => rfl, fun _ h => h⟩
  · rw [hi]
    exact h.extended

/-- The filters that a group had have the same outcome. -/
theorem Grown.filterOutcome (h : c.Grown c' identity config id s') (i : Nat) {x : Filter}
    (hx : x ∈ (c.tree.node i).predicates.filters) :
    c.filterOutcome resolve task (c.tree.node i).predicates x =
      c'.filterOutcome resolve task (c'.tree.node i).predicates x :=
  filterOutcome_congr h.escape (h.expands i) (h.expands' i) (h.extends i).modifiers hx
    ((h.extends i).mem_filters hx)

/-- Other groups have no filters but those that they had. -/
theorem Grown.filters_of_ne (h : c.Grown c' identity config id s') {i : Nat} (hi : i ≠ id) :
    (c'.tree.node i).predicates.filters = (c.tree.node i).predicates.filters := by
  rw [h.tree, c.tree.node_modifyPredicates_of_ne id _ hi]

theorem Grown.connective (h : c.Grown c' identity config id s') (i : Nat) :
    (c'.tree.node i).connective = (c.tree.node i).connective := by
  rw [h.tree]
  exact (c.tree.shape_modifyPredicates id _ i).1

theorem Grown.children (h : c.Grown c' identity config id s') (i : Nat) :
    (c'.tree.node i).children = (c.tree.node i).children := by
  rw [h.tree]
  exact (c.tree.shape_modifyPredicates id _ i).2.2

/-- The step for an OR group: with one more alternative it holds where it did.  It was not without any
filter or group before, when it would have held as well. -/
theorem Grown.yields_of_or (h : c.Grown c' identity config id s')
    (hor : (c.tree.node id).connective = .or)
    (hfull : (c.tree.node id).children = [] → (c.tree.node id).predicates.filters ≠ []) (i : Nat) :
    c.Yields c' resolve task i := by
  by_cases hi : i = id
  · subst hi
    refine ⟨h.connective i, h.children i, fun hand => ?_, fun _ => ?_, fun _ hnone hnil => ?_⟩
    · rw [hor] at hand
      cases hand
    · rintro ⟨x, hx, htrue⟩
      exact ⟨x, (h.extends i).mem_filters hx, (h.filterOutcome i hx).symm.trans htrue⟩
    · exact absurd hnil (hfull hnone)
  · exact yields_of_filters (h.connective i) (h.children i) (h.filters_of_ne hi) fun x hx htrue =>
      (h.filterOutcome i hx).symm.trans htrue

/-- The step for an AND group: it held without one of its conditions where it holds with all of
them. -/
theorem Grown.yields_of_and (h : c.Grown c' identity config id s')
    (hand : (c.tree.node id).connective = .and) (i : Nat) : c'.Yields c resolve task i := by
  have hconnective := h.connective i
  by_cases hi : i = id
  · subst hi
    refine ⟨hconnective.symm, (h.children i).symm, fun _ htrue x hx => ?_, fun hor => ?_,
      fun hor => ?_⟩
    · rw [h.filterOutcome i hx]
      exact htrue x ((h.extends i).mem_filters hx)
    · rw [hconnective, hand] at hor
      cases hor
    · rw [hconnective, hand] at hor
      cases hor
  · refine yields_of_filters hconnective.symm (h.children i).symm (h.filters_of_ne hi).symm
      fun x hx htrue => ?_
    rw [h.filters_of_ne hi] at hx
    exact (h.filterOutcome i hx).trans htrue

/-- Fewer filters can be evaluated where more can. -/
theorem Grown.evaluates (h : c.Grown c' identity config id s') {i : Nat}
    (he' : c'.Evaluates resolve task (c'.tree.node i).predicates) :
    c.Evaluates resolve task (c.tree.node i).predicates := by
  intro x hx
  rw [h.filterOutcome i hx]
  exact he' x ((h.extends i).mem_filters hx)

/-- An evaluation can only fail on expressions, so it does not fail on other filters that are
added. -/
theorem Grown.evaluates' (h : c.Grown c' identity config id s') (h' : c'.Lays s f)
    (hexpressions : ∀ d x, s'.expressionOf? d = some x →
      (c.tree.node id).predicates.expressionOf? d = some x) {i : Nat}
    (he : c.Evaluates resolve task (c.tree.node i).predicates) :
    c'.Evaluates resolve task (c'.tree.node i).predicates := by
  refine Classical.byContradiction fun hnot => ?_
  obtain ⟨d, x, hexpression, hfails⟩ := (not_evaluates_iff (h'.sound_node i)).1 hnot
  have hbefore : (c.tree.node i).predicates.expressionOf? d = some x := by
    rw [h.tree] at hexpression
    rcases c.tree.node_modifyPredicates_or id (fun _ => s') i with hi | ⟨rfl, hi⟩
    · rwa [hi] at hexpression
    · rw [hi] at hexpression
      exact hexpressions d x hexpression
  have hx := PredicateSet.mem_filters_expression.2 hbefore
  obtain ⟨b, hb⟩ := he _ hx
  obtain ⟨e, herror⟩ := (expressionOutcome_eq_error (c := c')
    ((h'.sound_node i).supportsExpression hexpression) x).2 hfails
  rw [h.filterOutcome i hx, Criteria.filterOutcome, herror] at hb
  cases hb

end Criteria

/-! ## The result -/

namespace Query

variable {q q' r r' : Query} {identity : IdentityResolver} {config : Config} {c c' : Criteria}

/-- Closing groups changes nothing but the current group. -/
theorem Reachable.closeGroups {cs : List Connective} (hq : q.Reachable)
    (hr : cs.foldlM Query.closeGroup q = .ok r) : r.Reachable ∧ r.tree = q.tree := by
  induction cs generalizing q with
  | nil =>
    cases hr
    exact ⟨hq, rfl⟩
  | cons k cs ih =>
    obtain ⟨next, hnext, hr⟩ := bind_eq_ok.1 hr
    have htree : next.tree = q.tree := by
      rw [closeGroup] at hnext
      split at hnext
      · cases hnext
      · split at hnext
        · cases hnext
          rfl
        · cases hnext
    obtain ⟨hreachable, hsame⟩ := ih (.apply (.closeGroup k) hq hnext) hr
    exact ⟨hreachable, hsame.trans htree⟩

/-- What a call on filters makes of the current group. -/
theorem exists_change_of_apply {e : Edit} (he : e.onFilters = true) (h : q.apply e = .ok q') :
    ∃ s, e.change q.group.connective q.predicates = .ok s ∧ q' = q.modify fun _ => s := by
  rw [apply_of_onFilters he] at h
  cases hs : e.change q.group.connective q.predicates with
  | error err =>
    rw [hs] at h
    cases h
  | ok s =>
    rw [hs] at h
    cases h
    exact ⟨s, rfl, rfl⟩

/-- The compiled queries before and after a change that extends the current group. -/
theorem grown_of_extends {s' : PredicateSet} (hextends : q.predicates.Extends s')
    (hr : r.tree = q.tree) (hr' : r'.tree = (q.modify fun _ => s').tree)
    (hc : r.compile identity config = .ok c) (hc' : r'.compile identity config = .ok c') :
    c.Grown c' identity config q.current s' := by
  obtain ⟨-, -, htree, hescape⟩ := compile_eq_ok hc
  obtain ⟨-, -, htree', hescape'⟩ := compile_eq_ok hc'
  have hbefore : c.tree = q.tree := htree.trans hr
  refine ⟨hescape.trans hescape'.symm, ?_, Criteria.expands_node_of_compile hc,
    Criteria.expands_node_of_compile hc', ?_⟩
  · rw [htree', hr', hbefore]
    rfl
  · rw [hbefore]
    exact hextends

/-- A group of a compiled query that is combined by OR has filters or groups below it. -/
theorem filters_ne_nil_of_or (hr : r.Reachable) (hc : r.compile identity config = .ok c) {id : Nat}
    (hor : (c.tree.node id).connective = .or) (hchildren : (c.tree.node id).children = []) :
    (c.tree.node id).predicates.filters ≠ [] := by
  intro hnil
  have hcomplete := fun h => not_complete_iff.2 h (hr.complete_of_compile hc)
  have hbare := ((compile_outcome hr identity config).2.1 hcomplete).2.1 ⟨c, hc⟩
  obtain ⟨s, f, h⟩ := hr.lays hc
  rw [(compile_eq_ok hc).2.2.1] at hor hchildren hnil
  refine hbare ⟨id, ?_, ?_, hchildren, hnil⟩
  · rintro rfl
    rw [← (compile_eq_ok hc).2.2.1, h.node_root] at hor
    cases hor
  · refine Nat.lt_of_not_le fun hge => ?_
    have hnone : r.tree.nodes[id]? = none := Array.getElem?_eq_none_iff.2 hge
    rw [Tree.node, hnone] at hor
    cases hor

/-- One more call on the current group, which is then closed together with the groups around it.

If the group is combined by OR and the call adds a value of a dimension that takes several and has no
expression, a switch that filters, or a variable, every task that the query matched is still
matched.  If the group is combined by AND, as the root is, and the call adds a value or an expression
of a dimension that has neither, a switch that filters, or a variable, every task that is matched
now was matched before.  The evaluation of the other query does not fail in either case. -/
theorem additions_ordered (hq : q.Reachable) {e : Edit} (he : q.apply e = .ok q')
    {cs : List Connective} (hr : cs.foldlM Query.closeGroup q = .ok r)
    (hr' : cs.foldlM Query.closeGroup q' = .ok r') (hc : r.compile identity config = .ok c)
    (hc' : r'.compile identity config = .ok c') :
    (q.group.connective = .or → e.AddsAlternative q.predicates → ∀ resolve task,
      c.holds resolve task = .ok true → c'.holds resolve task = .ok true) ∧
    (q.group.connective = .and → e.AddsCondition q.predicates → ∀ resolve task,
      c'.holds resolve task = .ok true → c.holds resolve task = .ok true) := by
  obtain ⟨hreach, htree⟩ := hq.closeGroups hr
  obtain ⟨hreach', htree'⟩ := (Reachable.apply e hq he).closeGroups hr'
  obtain ⟨s, f, h⟩ := hreach.lays hc
  obtain ⟨s', f', h'⟩ := hreach'.lays hc'
  have hgroup : c.tree.node q.current = q.group := by
    rw [(compile_eq_ok hc).2.2.1, htree]
    rfl
  constructor
  · intro hor hadds resolve task htrue
    obtain ⟨t, ht, rfl⟩ := exists_change_of_apply hadds.onFilters he
    rw [hor] at ht
    obtain ⟨hextends, hexpressions⟩ := PredicateSet.extends_of_addsAlternative hadds ht
    have hgrown := grown_of_extends hextends htree htree' hc hc'
    rw [← hgroup] at hor
    refine h.holds_mono h' (fun id => ?_) (hgrown.yields_of_or hor
      (filters_ne_nil_of_or hreach hc hor)) htrue
    refine hgrown.evaluates' h' ?_ ((h.holds_eq_true.1 htrue).1 id)
    rw [hgroup]
    exact hexpressions
  · intro hand hadds resolve task htrue
    obtain ⟨t, ht, rfl⟩ := exists_change_of_apply hadds.onFilters he
    rw [hand] at ht
    have hextends := PredicateSet.extends_of_addsCondition hadds ht
    have hgrown := grown_of_extends hextends htree htree' hc hc'
    rw [← hgroup] at hand
    exact h'.holds_mono h (fun id => hgrown.evaluates ((h'.holds_eq_true.1 htrue).1 id))
      (hgrown.yields_of_and hand) htrue

/-- A second assignee in an OR group, and an expression for the owner in an AND group within one.  The
first query with the second assignee matches a task of the first one, and the second query without
the expression one that it matches with it. -/
theorem additions_ordered_built :
    let q := built [.openGroup .or, .setTerm .assignee (.text "ada") rfl]
    let e : Edit := .setTerm .assignee (.text "bob") rfl
    let p := built [.openGroup .or, .setFlag .unassigned, .openGroup .and, .setFlag .withoutDueDate]
    let a : Edit := .setExpression .owner "boss" rfl
    let resolve : ExpressionResolver := fun _ => .ok (.text "eve")
    let task : Task := { assignee := some "ada", owner := some "eve" }
    ∃ (q' r r' p' u u' : Query) (c c' d d' : Criteria),
      (q.Reachable ∧ q.apply e = .ok q' ∧ q.group.connective = .or ∧
        e.AddsAlternative q.predicates) ∧
      ([Connective.or].foldlM Query.closeGroup q = .ok r ∧
        [Connective.or].foldlM Query.closeGroup q' = .ok r') ∧
      (r.compile (fun _ => []) {} = .ok c ∧ r'.compile (fun _ => []) {} = .ok c' ∧
        c.holds resolve task = .ok true ∧ c'.holds resolve task = .ok true) ∧
      (p.Reachable ∧ p.apply a = .ok p' ∧ p.group.connective = .and ∧
        a.AddsCondition p.predicates) ∧
      ([Connective.and, .or].foldlM Query.closeGroup p = .ok u ∧
        [Connective.and, .or].foldlM Query.closeGroup p' = .ok u') ∧
      u.compile (fun _ => []) {} = .ok d ∧ u'.compile (fun _ => []) {} = .ok d' ∧
        d'.holds resolve task = .ok true ∧ d.holds resolve task = .ok true := by
  intro q e p a resolve task
  let q' := built [.openGroup .or, .setTerm .assignee (.text "ada") rfl, e]
  let p' := built [.openGroup .or, .setFlag .unassigned, .openGroup .and, .setFlag .withoutDueDate,
    a]
  let r : Query := { q with current := Tree.root }
  let r' : Query := { q' with current := Tree.root }
  let u : Query := { p with current := Tree.root }
  let u' : Query := { p' with current := Tree.root }
  have hq : q.Reachable := reachable_built _
  have hp : p.Reachable := reachable_built _
  have hadds : e.AddsAlternative q.predicates := ⟨by decide, by decide +kernel⟩
  have hadds' : a.AddsCondition p.predicates := by
    change p.predicates.hasPredicate .owner = false
    decide +kernel
  have hcalls : q.apply e = .ok q' ∧ p.apply a = .ok p' := ⟨rfl, rfl⟩
  have hclosed : [Connective.or].foldlM Query.closeGroup q = .ok r ∧
      [Connective.or].foldlM Query.closeGroup q' = .ok r' := ⟨rfl, rfl⟩
  have hclosed' : [Connective.and, .or].foldlM Query.closeGroup p = .ok u ∧
      [Connective.and, .or].foldlM Query.closeGroup p' = .ok u' := ⟨rfl, rfl⟩
  have hcompiles : (r.compile (fun _ => []) {}).toOption.map
      (fun c => (c.holds resolve task).toOption) = some (some true) ∧
      (u'.compile (fun _ => []) {}).toOption.map
        (fun c => (c.holds resolve task).toOption) = some (some true) ∧
      (r'.compile (fun _ => []) {}).toOption.isSome = true ∧
        (u.compile (fun _ => []) {}).toOption.isSome = true := by
    decide +kernel
  obtain ⟨c, hc, hcTrue⟩ := Option.map_eq_some_iff.1 hcompiles.1
  obtain ⟨d', hd', hdTrue⟩ := Option.map_eq_some_iff.1 hcompiles.2.1
  obtain ⟨c', hc'⟩ := Option.isSome_iff_exists.1 hcompiles.2.2.1
  obtain ⟨d, hd⟩ := Option.isSome_iff_exists.1 hcompiles.2.2.2
  rw [toOption_eq_some] at hc hcTrue hd' hdTrue hc' hd
  have hwidens := (additions_ordered hq hcalls.1 hclosed.1 hclosed.2 hc hc').1 rfl hadds
  have hnarrows := (additions_ordered hp hcalls.2 hclosed'.1 hclosed'.2 hd hd').2 rfl hadds'
  exact ⟨q', r, r', p', u, u', c, c', d, d', ⟨hq, hcalls.1, rfl, hadds⟩, hclosed,
    ⟨hc, hc', hcTrue, hwidens resolve task hcTrue⟩, ⟨hp, hcalls.2, rfl, hadds'⟩, hclosed', hd, hd',
    hdTrue, hnarrows resolve task hdTrue⟩

end Query

end Worklist
