import Mathlib.Data.List.Forall2
import Mathlib.Tactic.MkIffOfInductiveProp
import Worklist.Proofs.Criteria.Atoms
import Worklist.Proofs.Criteria.Expansion
import Worklist.Proofs.Criteria.Nesting

/-!
# Clauses carry no values

The text of a clause depends on the shape of its query only.  Two queries that differ in their
texts, numbers, dates, expressions and variable names, and in nothing else, have the same text, so
that no value of a caller is ever part of a statement.

* `Term.Alike`, `PredicateSet.Alike` and `Tree.Alike` say what the shape is: the kinds and numbers
  of the filters of every group, and the groups themselves.
* `text_boundCondition`, `text_flagCondition` and `text_variableCondition` compare the conditions,
  one lemma for each kind of filter.
* `clause_text_oblivious` is the result for reachable queries.
-/

namespace Worklist

open Sql

/-! ## The shape of a query -/

/-- Two literal values of one kind; sets have equally many members. -/
inductive Term.Alike : Term → Term → Prop where
  | text (s s' : String) : Alike (.text s) (.text s')
  | textSet {ss ss' : List String} (h : ss.length = ss'.length) : Alike (.textSet ss) (.textSet ss')
  | int (n n' : Int32) : Alike (.int n) (.int n')
  | date (t t' : Instant) : Alike (.date t) (.date t')
  | suspension (s s' : SuspensionState) : Alike (.suspension s) (.suspension s')
  | delegation (s s' : DelegationState) : Alike (.delegation s) (.delegation s')

/-- Two typed values of one case. -/
inductive Value.Alike : Value → Value → Prop where
  | null : Alike .null .null
  | boolean (b b' : Bool) : Alike (.boolean b) (.boolean b')
  | string (s s' : String) : Alike (.string s) (.string s')
  | integer (n n' : Int64) (w w' : IntegerWidth) : Alike (.integer n w) (.integer n' w')
  | double (x x' : Binary64) : Alike (.double x) (.double x')
  | number (n n' : Numeric) : Alike (.number n) (.number n')
  | date (t t' : Instant) : Alike (.date t) (.date t')
  | unsupported (k k' : UnsupportedKind) : Alike (.unsupported k) (.unsupported k')

/-- Two predicates on variables that differ in the name and in what the value holds. -/
@[mk_iff]
structure VariablePredicate.Alike (p p' : VariablePredicate) : Prop where
  operator : p.operator = p'.operator
  scope : p.scope = p'.scope
  isLocal : p.isLocal = p'.isLocal
  value : p.value.Alike p'.value

/-- Two groups with the same switches, and with filters of the same kinds in the same number. -/
structure PredicateSet.Alike (s s' : PredicateSet) : Prop where
  flags : ∀ f, s.hasFlag f = s'.hasFlag f
  terms : ∀ d, List.Forall₂ Term.Alike (s.termsOf d) (s'.termsOf d)
  expressions : ∀ d, (s.expressionOf? d).isSome = (s'.expressionOf? d).isSome
  variablePredicates :
    List.Forall₂ VariablePredicate.Alike s.variablePredicates s'.variablePredicates

/-- Two trees of one shape.  The groups of a reachable query are numbered in pre-order, so groups
that correspond to each other have the same position. -/
@[mk_iff]
structure Tree.Alike (t t' : Tree) : Prop where
  size : t.size = t'.size
  connective : ∀ id < t.size, (t.node id).connective = (t'.node id).connective
  children : ∀ id < t.size, (t.node id).children = (t'.node id).children
  predicates : ∀ id < t.size, (t.node id).predicates.Alike (t'.node id).predicates

/-- Two literal candidate users are expanded to equally many groups. -/
def Criteria.ExpandsAlike (c c' : Criteria) (t t' : Term) : Prop :=
  (c.groupsOf (t.user?.getD "")).length = (c'.groupsOf (t'.user?.getD "")).length

/-! ## Shapes can be compared -/

theorem Term.alike_iff {t t' : Term} :
    t.Alike t' ↔ t.kind = t'.kind ∧ t.params.length = t'.params.length := by
  constructor
  · intro h
    cases h with
    | textSet h => exact ⟨rfl, by rw [params, params, List.length_map, List.length_map, h]⟩
    | suspension s s' =>
      cases s <;> cases s' <;> exact ⟨rfl, by simp only [params, List.length_singleton]⟩
    | _ => exact ⟨rfl, by simp only [params, List.length_singleton]⟩
  · rintro ⟨hkind, hlength⟩
    cases t <;> cases t' <;> cases hkind
    case textSet.textSet.refl ss ss' =>
      rw [params, params, List.length_map, List.length_map] at hlength
      exact .textSet hlength
    all_goals constructor

theorem Value.alike_iff {v v' : Value} : v.Alike v' ↔ v.ctorIdx = v'.ctorIdx := by
  constructor
  · intro h
    cases h <;> rfl
  · intro h
    cases v <;> cases v' <;> first | constructor | cases h

instance : DecidableRel Term.Alike := fun _ _ => decidable_of_iff _ Term.alike_iff.symm

instance : DecidableRel Value.Alike := fun _ _ => decidable_of_iff _ Value.alike_iff.symm

instance : DecidableRel VariablePredicate.Alike := fun p p' =>
  decidable_of_iff _ (VariablePredicate.alike_iff p p').symm

theorem PredicateSet.alike_iff {s s' : PredicateSet} :
    s.Alike s' ↔ (∀ f ∈ Flag.all.toList, s.hasFlag f = s'.hasFlag f) ∧
      (∀ d ∈ Dimension.all.toList, List.Forall₂ Term.Alike (s.termsOf d) (s'.termsOf d) ∧
        (s.expressionOf? d).isSome = (s'.expressionOf? d).isSome) ∧
      List.Forall₂ VariablePredicate.Alike s.variablePredicates s'.variablePredicates := by
  constructor
  · rintro ⟨hflags, hterms, hexpressions, hvariables⟩
    exact ⟨fun f _ => hflags f, fun d _ => ⟨hterms d, hexpressions d⟩, hvariables⟩
  · rintro ⟨hflags, hdimensions, hvariables⟩
    have hall : ∀ d : Dimension, d ∈ Dimension.all.toList := fun d =>
      Vector.mem_toList_iff.2 d.mem_all
    exact ⟨fun f => hflags f (Vector.mem_toList_iff.2 f.mem_all),
      fun d => (hdimensions d (hall d)).1, fun d => (hdimensions d (hall d)).2, hvariables⟩

instance : DecidableRel PredicateSet.Alike := fun _ _ =>
  decidable_of_iff _ PredicateSet.alike_iff.symm

instance : DecidableRel Tree.Alike := fun t t' =>
  decidable_of_iff _ (Tree.alike_iff t t').symm

instance (c c' : Criteria) : DecidableRel (c.ExpandsAlike c') := fun _ _ =>
  inferInstanceAs (Decidable (_ = _))

/-! ## Lists of one shape -/

/-- Functions that agree on related items give the same list on related lists. -/
theorem map_eq_of_forall₂ {α β γ : Type} {R : α → β → Prop} {f : α → γ} {g : β → γ}
    {as : List α} {bs : List β} (h : List.Forall₂ R as bs) (hfg : ∀ a b, R a b → f a = g b) :
    as.map f = bs.map g := by
  induction h with
  | nil => rfl
  | cons hab _ ih => rw [List.map_cons, List.map_cons, hfg _ _ hab, ih]

theorem Term.Alike.length_params {t t' : Term} (h : t.Alike t') :
    t.params.length = t'.params.length :=
  (Term.alike_iff.1 h).2

/-! ## Conditions of one shape -/

/-- A single value is written as one mark. -/
theorem text_mark (p p' : Param) : (Expr.marks [p]).text = (Expr.marks [p']).text := rfl

theorem texts_append (conditions more : List Condition) :
    texts (conditions ++ more) = texts conditions ++ texts more := by
  rw [texts_eq_map, texts_eq_map, texts_eq_map, List.map_append]

/-- The marks for a list of values are as many as the values. -/
theorem text_options {α : Type} (param : α → Param) (as : List α) :
    (as.map fun a => Expr.marks [param a]).map Expr.text =
      List.replicate as.length (markList 1) := by
  rw [List.map_map, ← List.map_const']
  rfl

section Conditions

variable {s s' : PredicateSet} {ps ps' : List Param} {groups groups' : List String}

theorem text_candidateLink {link link' : Condition} (h : link.text = link'.text)
    (isNegated : Bool) :
    (candidateLink isNegated link).text = (candidateLink isNegated link').text := by
  simp only [candidateLink, Condition.text, texts, h]

theorem text_candidateCondition
    (hflag : s.hasFlag .includeAssignedTasks = s'.hasFlag .includeAssignedTasks)
    {link link' : Condition} (h : link.text = link'.text) :
    (candidateCondition s link).text = (candidateCondition s' link').text := by
  rw [candidateCondition, candidateCondition, hflag]
  split
  · exact text_candidateLink h false
  · rw [Condition.text, Condition.text, texts, texts, texts, texts, text_candidateLink h false]
    rfl

theorem text_candidateUserLink (h : groups.length = groups'.length) (user user' : Param) :
    (candidateUserLink user groups).text = (candidateUserLink user' groups').text := by
  have hempty : groups.isEmpty = groups'.isEmpty := by
    rw [Bool.eq_iff_iff, List.isEmpty_iff_length_eq_zero, List.isEmpty_iff_length_eq_zero, h]
  rw [candidateUserLink, candidateUserLink, hempty]
  split
  · rfl
  · simp only [Condition.text, texts, text_options, h]
    rfl

theorem text_columnCondition (h : ps.length = ps'.length) (d : Dimension) (escape : Char) :
    (columnCondition d ps escape).text = (columnCondition d ps' escape).text := by
  unfold columnCondition
  cases d.comparison <;>
    simp only [Condition.text, Expr.text, text_options, involvedCondition, candidateLink, texts, h]

theorem text_boundCondition
    (hflag : s.hasFlag .includeAssignedTasks = s'.hasFlag .includeAssignedTasks)
    (hps : ps.length = ps'.length) {d : Dimension}
    (hgroups : d = .candidateUser → groups.length = groups'.length) (escape : Char) :
    (boundCondition s d ps groups escape).text = (boundCondition s' d ps' groups' escape).text := by
  by_cases hd : d.isCandidate = true
  · cases d <;> cases hd
    case candidateUser.refl =>
      exact text_candidateCondition hflag (text_candidateUserLink (hgroups rfl) _ _)
    case candidateGroup.refl =>
      refine text_candidateCondition hflag ?_
      simp only [Condition.text, Expr.text, hps]
    case candidateGroupIn.refl =>
      refine text_candidateCondition hflag ?_
      simp only [Condition.text, Expr.text, text_options, hps]
  · rw [Bool.not_eq_true] at hd
    rw [boundCondition_column hd, boundCondition_column hd, text_columnCondition hps]

theorem text_flagCondition
    (hflag : s.hasFlag .includeAssignedTasks = s'.hasFlag .includeAssignedTasks) (f : Flag) :
    (flagCondition s f).text = (flagCondition s' f).text := by
  cases f <;> first | rfl | exact text_candidateCondition hflag rfl

/-! ## Variables -/

theorem text_operatorCondition {left left' right right' : Expr} (hleft : left.text = left'.text)
    (hright : right.text = right'.text) (operator : VariableOperator) (escape : Char) :
    (operatorCondition operator left right escape).text =
      (operatorCondition operator left' right' escape).text := by
  cases operator <;> simp only [operatorCondition, Condition.text, hleft, hright]

theorem text_cased {e e' : Expr} (h : e.text = e'.text) (ignoreCase : Bool) :
    (cased ignoreCase e).text = (cased ignoreCase e').text := by
  cases ignoreCase
  · exact h
  · rw [cased, cased, if_pos rfl, if_pos rfl, Expr.text, Expr.text, h]

theorem texts_valueConditions {p p' : VariablePredicate} (h : p.Alike p') (ignoreCase : Bool)
    (escape : Char) :
    texts (valueConditions p ignoreCase escape) = texts (valueConditions p' ignoreCase escape) := by
  obtain ⟨hoperator, -, -, hvalue⟩ := h
  have hcompared : ∀ (left : Expr) (param param' : Param),
      (operatorCondition p'.operator left (.marks [param]) escape).text =
        (operatorCondition p'.operator left (.marks [param']) escape).text := by
    intro left param param'
    exact text_operatorCondition rfl (text_mark param param') _ _
  have hcased : ∀ x x' : String,
      (operatorCondition p'.operator (cased ignoreCase (.column "V.TEXT_"))
          (cased ignoreCase (.marks [.text x])) escape).text =
        (operatorCondition p'.operator (cased ignoreCase (.column "V.TEXT_"))
          (cased ignoreCase (.marks [.text x'])) escape).text := by
    intro x x'
    exact text_operatorCondition rfl (text_cased (text_mark _ _) _) _ _
  unfold valueConditions
  rw [hoperator]
  generalize p.value = v at hvalue
  generalize p'.value = v' at hvalue
  cases hvalue with
  | null => rfl
  | boolean b b' => simp only [texts, hcompared _ (.bool b) (.bool b')]
  | string x x' => simp only [texts, hcased x x']
  | integer n n' w w' => simp only [texts, hcompared _ (.int n) (.int n')]
  | double x x' => simp only [texts, hcompared _ (.double x) (.double x')]
  | number n n' => simp only [texts, hcompared _ n.param n'.param]
  | date t t' => simp only [texts, hcompared _ (.date t) (.date t')]
  | unsupported k k' => rfl

theorem text_variableCondition (hflags : ∀ f, s.hasFlag f = s'.hasFlag f)
    {p p' : VariablePredicate} (h : p.Alike p') (escape : Char) :
    (variableCondition s p escape).text = (variableCondition s' p' escape).text := by
  have hname := text_cased (text_mark (.text p.name) (.text p'.name))
    (s'.hasFlag .matchVariableNamesIgnoreCase)
  rw [variableCondition, variableCondition, Condition.text, Condition.text, texts_append,
    texts_append, texts, texts, texts_valueConditions h, hflags, hflags, h.scope, h.isLocal,
    Condition.text, Condition.text, hname]

end Conditions

/-! ## Groups -/

namespace Criteria

variable {c c' : Criteria} {s s' : PredicateSet}

/-- The texts for the literal values of one dimension. -/
theorem texts_terms (hescape : c.likeEscape = c'.likeEscape) (h : s.Alike s')
    (hgroups : List.Forall₂ (c.ExpandsAlike c') (s.termsOf .candidateUser)
      (s'.termsOf .candidateUser)) (d : Dimension) :
    (s.termsOf d).map (fun t => (c.termCondition s d t).text) =
      (s'.termsOf d).map (fun t => (c'.termCondition s' d t).text) := by
  have hflag := h.flags .includeAssignedTasks
  by_cases hd : d = .candidateUser
  · subst hd
    have hboth : List.Forall₂ (fun t t' => t.Alike t' ∧ c.ExpandsAlike c' t t')
        (s.termsOf .candidateUser) (s'.termsOf .candidateUser) :=
      List.Forall₂.mp (fun _ _ halike hexpands => ⟨halike, hexpands⟩) (h.terms _) hgroups
    refine map_eq_of_forall₂ hboth fun t t' ht => ?_
    rw [termCondition, termCondition, hescape]
    exact text_boundCondition hflag ht.1.length_params (fun _ => ht.2) _
  · refine map_eq_of_forall₂ (h.terms d) fun t t' ht => ?_
    rw [termCondition, termCondition, hescape]
    exact text_boundCondition hflag ht.length_params (fun heq => absurd heq hd) _

theorem text_expressionCondition (hescape : c.likeEscape = c'.likeEscape) (h : s.Alike s')
    (d : Dimension) (e e' : String) :
    (c.expressionCondition s d e).text = (c'.expressionCondition s' d e').text := by
  have hone : [Param.expression e].length = [Param.expression e'].length := rfl
  rw [expressionCondition, expressionCondition, hescape]
  exact text_boundCondition (h.flags .includeAssignedTasks) hone (fun _ => rfl) _

/-- The text for the expression of one dimension, if there is one. -/
theorem text_expression? (hescape : c.likeEscape = c'.likeEscape) (h : s.Alike s')
    (d : Dimension) :
    (s.expressionOf? d).map (fun e => (c.expressionCondition s d e).text) =
      (s'.expressionOf? d).map (fun e => (c'.expressionCondition s' d e).text) := by
  have hsome := h.expressions d
  cases he : s.expressionOf? d <;> cases he' : s'.expressionOf? d <;> rw [he, he'] at hsome
  · rfl
  · cases hsome
  · cases hsome
  · rw [Option.map_some, Option.map_some, text_expressionCondition hescape h]

/-- The filters of two groups of one shape are written in the same way, section by section. -/
theorem texts_filters (hescape : c.likeEscape = c'.likeEscape) (h : s.Alike s')
    (hgroups : List.Forall₂ (c.ExpandsAlike c') (s.termsOf .candidateUser)
      (s'.termsOf .candidateUser)) :
    s.filters.map (fun x => (c.condition s x).text) =
      s'.filters.map (fun x => (c'.condition s' x).text) := by
  have hterms := texts_terms hescape h hgroups
  have hexpressions := text_expression? hescape h
  have hflags : (Flag.all.toList.filter fun f => s.hasFlag f && !f.isModifier).map
        (fun f => (flagCondition s f).text) =
      (Flag.all.toList.filter fun f => s'.hasFlag f && !f.isModifier).map
        (fun f => (flagCondition s' f).text) := by
    simp only [h.flags, text_flagCondition (h.flags .includeAssignedTasks)]
  have hvariables : s.variablePredicates.map (fun p => (variableCondition s p c.likeEscape).text) =
      s'.variablePredicates.map (fun p => (variableCondition s' p c'.likeEscape).text) := by
    rw [hescape]
    exact map_eq_of_forall₂ h.variablePredicates fun _ _ hp =>
      text_variableCondition h.flags hp _
  rw [PredicateSet.filters, PredicateSet.filters]
  simp only [List.map_append, List.map_flatMap, List.map_filterMap, List.map_map, Option.map_map,
    Function.comp_def, condition]
  rw [hflags, hvariables]
  simp only [hterms, hexpressions]

/-! ## Clauses -/

theorem nestedText_alike (ht : c.tree.Ascending) (ht' : c'.tree.Ascending)
    (hescape : c.likeEscape = c'.likeEscape) (h : c.tree.Alike c'.tree)
    (hgroups : ∀ id < c.tree.size, List.Forall₂ (c.ExpandsAlike c')
      ((c.tree.node id).predicates.termsOf .candidateUser)
      ((c'.tree.node id).predicates.termsOf .candidateUser)) {id : Nat} (hid : id < c.tree.size) :
    c.nestedText id = c'.nestedText id := by
  induction id using ht.induction with
  | step id ih =>
    have hparts : (c.parts id).map Condition.text = (c'.parts id).map Condition.text := by
      rw [parts, parts, List.map_map, List.map_map]
      exact texts_filters hescape (h.predicates id hid) (hgroups id hid)
    have hchildren : ((c.tree.node id).children.map fun child => bracketed (c.nestedText child)) =
        (c'.tree.node id).children.map fun child => bracketed (c'.nestedText child) := by
      rw [← h.children id hid]
      refine List.map_congr_left fun child hchild => ?_
      rw [ih child hchild (ht id child hchild).2]
    rw [nestedText_eq ht, nestedText_eq ht', hparts, hchildren, h.connective id hid]

/-- The clause of a reachable query carries no value of a caller.

Two queries of one shape have the same text: trees with the same connectives and the same groups,
and in every group the same switches, literal values of the same kinds and in the same number,
expressions on the same dimensions, and variables of the same operators, scopes and kinds.  The
identities and the other settings can differ as well, as long as the escape character is the same
and the candidate users that correspond to each other have equally many groups. -/
theorem clause_text_oblivious {q q' : Query} (hq : q.Reachable) (hq' : q'.Reachable)
    {identity identity' : IdentityResolver} {config config' : Config}
    (hc : q.compile identity config = .ok c) (hc' : q'.compile identity' config' = .ok c')
    (hescape : config.likeEscape = config'.likeEscape) (hshape : q.tree.Alike q'.tree)
    (hgroups : ∀ id < q.tree.size, List.Forall₂ (c.ExpandsAlike c')
      ((q.tree.node id).predicates.termsOf .candidateUser)
      ((q'.tree.node id).predicates.termsOf .candidateUser)) :
    c.clause.text = c'.clause.text := by
  obtain ⟨s, f, h⟩ := hq.lays hc
  obtain ⟨s', f', h'⟩ := hq'.lays hc'
  obtain ⟨-, -, htree, hescape_c⟩ := Query.compile_eq_ok hc
  obtain ⟨-, -, htree', hescape_c'⟩ := Query.compile_eq_ok hc'
  have hroot : Tree.root < c.tree.size := h.size ▸ Nat.succ_pos f.size
  rw [h.text_clause, h'.text_clause]
  rw [← htree, ← htree'] at hshape hgroups
  exact nestedText_alike h.ascending h'.ascending
    (hescape_c.trans (hescape.trans hescape_c'.symm)) hshape hgroups hroot

/-- Values that look like marks, quotes and patterns, and candidate users with one group each. -/
theorem clause_text_oblivious_built :
    ∃ (q q' : Query) (c c' : Criteria), (q ≠ q' ∧ q.tree.Alike q'.tree) ∧
      (q.Reachable ∧ q'.Reachable) ∧ q.compile (fun _ => ["staff"]) {} = .ok c ∧
        q'.compile (fun _ => ["?)'"]) {} = .ok c' ∧ c.clause.text = c'.clause.text := by
  let edits (user name : String) : List Edit :=
    [.setTerm .candidateUser (.text user) rfl, .setExpression .owner name rfl, .openGroup .or,
      .setTerm .nameLike (.text name) rfl, .setTerm .taskIdIn (.textSet [user, name]) rfl,
      .compareVariable name .equals (.string user) .taskLocal true, .setFlag .assigned,
      .closeGroup .or]
  let q := Query.built (edits "ada" "check%")
  let q' := Query.built (edits "' OR 1 = 1" "?")
  have hne : q ≠ q' := by decide +kernel
  have hok : (q.compile (fun _ => ["staff"]) {}).isOk = true := by decide +kernel
  have hok' : (q'.compile (fun _ => ["?)'"]) {}).isOk = true := by decide +kernel
  have hq : q.Reachable := Query.reachable_built _
  have hq' : q'.Reachable := Query.reachable_built _
  have hshape : q.tree.Alike q'.tree := by decide +kernel
  have hgroups : ∀ id < q.tree.size, List.Forall₂
      ((q.compiled (fun _ => ["staff"]) {} []).ExpandsAlike
        (q'.compiled (fun _ => ["?)'"]) {} []))
      ((q.tree.node id).predicates.termsOf .candidateUser)
      ((q'.tree.node id).predicates.termsOf .candidateUser) := by decide +kernel
  cases hc : q.compile (fun _ => ["staff"]) {} with
  | error e =>
    rw [hc] at hok
    cases hok
  | ok c =>
    cases hc' : q'.compile (fun _ => ["?)'"]) {} with
    | error e =>
      rw [hc'] at hok'
      cases hok'
    | ok c' =>
      refine ⟨q, q', c, c', ⟨hne, hshape⟩, ⟨hq, hq'⟩, hc, hc',
        clause_text_oblivious hq hq' hc hc' rfl hshape ?_⟩
      -- the groups of a user do not depend on the closing plan
      rw [eq_compiled hc, eq_compiled hc']
      exact hgroups

end Criteria

end Worklist
