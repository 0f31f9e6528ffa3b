import Worklist.Proofs.Criteria.Filters
import Worklist.Proofs.Criteria.Nesting
import Worklist.Proofs.Sql.ReadBack

/-!
# The filters of a clause can be read

The conditions that are written for the filters of a sound group are readable: they contain names of
columns and of types that are fixed, a value behind every mark, and no list that could be empty.

* `Dimension.Binds` says which values a dimension can be compared with, and `binds_params` that the
  literal values of a sound group are such.
* There is a lemma for each condition, and `PredicateSet.Sound.readable_condition` is for all filters.
* `Lays.read?_part` reads a filter of a compiled query from its text and its parameters.
-/

namespace Worklist

open Sql

/-! ## Values -/

/-- Values that a dimension can be compared with: some if it takes sets, and otherwise a single
one. -/
structure Dimension.Binds (d : Dimension) (params : List Param) : Prop where
  ne_nil : params ≠ []
  single : d.termKind ≠ .textSet → ∃ p, params = [p]

theorem Dimension.binds_singleton (d : Dimension) (p : Param) : d.Binds [p] :=
  ⟨List.cons_ne_nil _ _, fun _ => ⟨p, rfl⟩⟩

/-- A literal value of the kind that a dimension takes. -/
theorem Dimension.binds_params {d : Dimension} {t : Term} (hkind : t.kind = d.termKind)
    (hfilled : t ≠ .textSet []) : d.Binds t.params := by
  cases t with
  | textSet ss =>
    refine ⟨fun hnil => hfilled ?_, fun hne => absurd hkind.symm hne⟩
    rw [List.map_eq_nil_iff.1 hnil]
  | suspension x => cases x <;> exact d.binds_singleton _
  | _ => exact d.binds_singleton _

namespace Sql

theorem readable_column {name : String} (h : isColumnName name.toList = true) :
    (Expr.column name).Readable := .operand (.column h)

theorem readable_mark (p : Param) : (Expr.marks [p]).Readable := .operand (.mark p)

theorem readable_literal {text : String} (h : IsQuiet text) : (Expr.literal text).Readable :=
  .operand (.literal h)

theorem isOperand_options {α : Type} (param : α → Param) (as : List α) :
    ∀ o ∈ as.map fun a => Expr.marks [param a], o.IsOperand := by
  intro o ho
  obtain ⟨a, -, rfl⟩ := List.mem_map.1 ho
  exact .mark _

theorem readable_field (field : TaskField) : (Expr.column field.column).Readable := by
  cases field <;> exact readable_column rfl

variable {escape : Char}

/-- Columns that are compared, as a subquery is joined to the task. -/
theorem readable_join {left right : String} (h : isColumnName left.toList = true)
    (h' : isColumnName right.toList = true) :
    (Condition.compare (.column left) .eq (.column right)).Readable escape :=
  .compare (readable_column h) .eq (readable_column h')

/-- A column that is compared with one value. -/
theorem readable_bound {name : String} (h : isColumnName name.toList = true) (p : Param) :
    (Condition.compare (.column name) .eq (.marks [p])).Readable escape :=
  .compare (readable_column h) .eq (readable_mark p)

end Sql

variable {s : PredicateSet} {escape : Char}

/-! ## Filters on candidates -/

theorem readable_candidateLink {link : Condition} (h : link.Readable escape) (isNegated : Bool) :
    (candidateLink isNegated link).Readable escape := by
  have htype : (Condition.compare (.column "I.TYPE_") .eq (.literal "candidate")).Readable escape :=
    .compare (readable_column rfl) .eq (readable_literal (by decide))
  refine .anyRow isNegated .identityLinks (List.cons_ne_nil _ _) ?_
  rw [List.forall_mem_cons, List.forall_mem_cons, List.forall_mem_singleton]
  exact ⟨readable_join rfl rfl, htype, h⟩

theorem readable_candidateCondition {link : Condition} (h : link.Readable escape) :
    (candidateCondition s link).Readable escape := by
  have hlink := readable_candidateLink h false
  rw [candidateCondition]
  split
  · exact hlink
  · refine .bracket .and (Nat.le_refl 2) ?_
    rw [List.forall_mem_cons, List.forall_mem_singleton]
    exact ⟨.isNull false (readable_column rfl), hlink⟩

theorem readable_candidateUserLink (user : Param) (groups : List String) :
    (candidateUserLink user groups).Readable escape := by
  have huser : (Condition.compare (.column "I.USER_ID_") .eq (.marks [user])).Readable escape :=
    readable_bound rfl user
  rw [candidateUserLink]
  split
  · exact huser
  · rename_i hsome
    have hgroups : (groups.map fun g => Expr.marks [.text g]) ≠ [] := by
      rw [ne_eq, List.map_eq_nil_iff, ← List.isEmpty_iff]
      exact hsome
    refine .bracket .or (Nat.le_refl 2) ?_
    rw [List.forall_mem_cons, List.forall_mem_singleton]
    exact ⟨huser, .isIn false (readable_column rfl) hgroups (isOperand_options .text groups)⟩

/-! ## Literal values, expressions and switches -/

theorem readable_involvedCondition (p : Param) : (involvedCondition [p]).Readable escape := by
  refine .bracket .or (by decide : 2 ≤ 3) ?_
  rw [List.forall_mem_cons, List.forall_mem_cons, List.forall_mem_singleton]
  refine ⟨readable_bound rfl p, readable_bound rfl p,
    .anyRow false .identityLinks (List.cons_ne_nil _ _) ?_⟩
  rw [List.forall_mem_cons, List.forall_mem_singleton]
  exact ⟨readable_join rfl rfl, readable_bound rfl p⟩

/-- Of dimensions that do not follow candidates, those that take sets are compared with lists. -/
theorem Dimension.comparison_of_isCandidate {d : Dimension} (h : d.isCandidate = false) :
    d.comparison ≠ .candidate ∧
      (d.termKind = .textSet → d.comparison = .isIn ∨ d.comparison = .notIn) := by
  revert h
  cases d <;> decide

theorem readable_columnCondition {d : Dimension} (hd : d.isCandidate = false)
    {params : List Param} (h : d.Binds params) :
    (columnCondition d params escape).Readable escape := by
  obtain ⟨hcandidate, hset⟩ := Dimension.comparison_of_isCandidate hd
  have hcolumn := readable_field d.field
  have hoptions : (params.map fun p => Expr.marks [p]) ≠ [] := by
    rw [ne_eq, List.map_eq_nil_iff]
    exact h.ne_nil
  have hall := isOperand_options id params
  have hsingle (hne : ¬(d.comparison = .isIn ∨ d.comparison = .notIn)) : ∃ p, params = [p] :=
    h.single (mt hset hne)
  unfold columnCondition
  cases hcomparison : d.comparison <;> rw [hcomparison] at hcandidate hsingle
  case isIn => exact .isIn false hcolumn hoptions hall
  case notIn => exact .isIn true hcolumn hoptions hall
  case candidate => exact absurd rfl hcandidate
  all_goals obtain ⟨p, rfl⟩ := hsingle (by decide)
  case like => exact .like false hcolumn (readable_mark p)
  case notLike => exact .like true hcolumn (readable_mark p)
  case involved => exact readable_involvedCondition p
  all_goals exact .compare hcolumn _ (readable_mark p)

theorem boundCondition_column {d : Dimension} (h : d.isCandidate = false) (s : PredicateSet)
    (params : List Param) (groups : List String) (escape : Char) :
    boundCondition s d params groups escape = columnCondition d params escape := by
  cases d <;> first | rfl | cases h

theorem readable_boundCondition {d : Dimension} {params : List Param} (h : d.Binds params)
    (groups : List String) : (boundCondition s d params groups escape).Readable escape := by
  by_cases hd : d.isCandidate = true
  · cases d <;> cases hd
    case candidateUser.refl =>
      obtain ⟨p, rfl⟩ := h.single (by decide)
      exact readable_candidateCondition (readable_candidateUserLink p groups)
    case candidateGroup.refl =>
      obtain ⟨p, rfl⟩ := h.single (by decide)
      exact readable_candidateCondition (readable_bound rfl p)
    case candidateGroupIn.refl =>
      have hoptions : (params.map fun p => Expr.marks [p]) ≠ [] := by
        rw [ne_eq, List.map_eq_nil_iff]
        exact h.ne_nil
      exact readable_candidateCondition
        (.isIn false (readable_column rfl) hoptions (isOperand_options id params))
  · rw [Bool.not_eq_true] at hd
    rw [boundCondition_column hd]
    exact readable_columnCondition hd h

theorem readable_flagCondition (f : Flag) : (flagCondition s f).Readable escape := by
  have hgroup : (Condition.isNull true (.column "I.GROUP_ID_")).Readable escape :=
    .isNull true (readable_column rfl)
  have huser : (Condition.isNull true (.column "I.USER_ID_")).Readable escape :=
    .isNull true (readable_column rfl)
  cases f
  case unassigned => exact .isNull false (readable_column rfl)
  case assigned => exact .isNull true (readable_column rfl)
  case withCandidateGroups => exact readable_candidateCondition hgroup
  case withCandidateUsers => exact readable_candidateCondition huser
  case withoutCandidateGroups => exact readable_candidateLink hgroup true
  case withoutCandidateUsers => exact readable_candidateLink huser true
  case withoutTenantId => exact .isNull false (readable_column rfl)
  case withoutDueDate => exact .isNull false (readable_column rfl)
  all_goals exact .never

/-! ## Variables -/

theorem readable_cased {e : Expr} (h : e.IsOperand) (ignoreCase : Bool) :
    (cased ignoreCase e).Readable := by
  cases ignoreCase
  · exact .operand h
  · exact .upper h

theorem readable_operatorCondition {left right : Expr} (h : left.Readable) (h' : right.Readable)
    (operator : VariableOperator) :
    (operatorCondition operator left right escape).Readable escape := by
  cases operator
  case like => exact .like false h h'
  all_goals exact .compare h _ h'

theorem readable_scopeConditions (scope : VariableScope) (isLocal : Bool) :
    ∀ c ∈ scopeConditions scope isLocal, c.Readable escape := by
  have htask : (Condition.compare (.column "V.TASK_ID_") .eq (.column "RES.ID_")).Readable escape :=
    readable_join rfl rfl
  have hprocess : (Condition.compare (.column "V.EXECUTION_ID_") .eq
      (.column "RES.PROC_INST_ID_")).Readable escape := readable_join rfl rfl
  have hcase : (Condition.compare (.column "V.CASE_EXECUTION_ID_") .eq
      (.column "RES.CASE_EXECUTION_ID_")).Readable escape := readable_join rfl rfl
  have hnone : (Condition.isNull false (.column "V.TASK_ID_")).Readable escape :=
    .isNull false (readable_column rfl)
  have hpair {c c' : Condition} (h : c.Readable escape) (h' : c'.Readable escape) :
      ∀ d ∈ [c, c'], d.Readable escape := by
    rw [List.forall_mem_cons, List.forall_mem_singleton]
    exact ⟨h, h'⟩
  cases scope
  case taskLocal =>
    cases isLocal
    · refine List.forall_mem_singleton.2 (.bracket .or (by decide : 2 ≤ 3) ?_)
      exact List.forall_mem_cons.2 ⟨htask, hpair hprocess hcase⟩
    · exact List.forall_mem_singleton.2 htask
  case processInstance => exact hpair hnone hprocess
  case caseExecution => exact hpair hnone hcase

theorem readable_typeIs {name : String} (h : IsQuiet name) : (typeIs name).Readable escape :=
  .compare (readable_column rfl) .eq (readable_literal h)

theorem readable_typeIn {names : List String} (hne : names ≠ [])
    (h : ∀ name ∈ names, IsQuiet name) : (typeIn names).Readable escape := by
  refine .isIn false (readable_column rfl) (mt List.map_eq_nil_iff.1 hne) fun o ho => ?_
  obtain ⟨name, hname, rfl⟩ := List.mem_map.1 ho
  exact .literal (h name hname)

theorem readable_valueConditions (p : VariablePredicate) (ignoreCase : Bool) :
    ∀ c ∈ valueConditions p ignoreCase escape, c.Readable escape := by
  have hlong : (Expr.column "V.LONG_").IsOperand := .column rfl
  have hdouble : (Expr.column "V.DOUBLE_").IsOperand := .column rfl
  have htext : (Expr.column "V.TEXT_").IsOperand := .column rfl
  -- the type of the variable, and its value
  have htyped {type left right : _} (htype : Condition.Readable escape type)
      (h : Expr.Readable left) (h' : Expr.Readable right) :
      ∀ c ∈ [type, operatorCondition p.operator left right escape], c.Readable escape := by
    rw [List.forall_mem_cons, List.forall_mem_singleton]
    exact ⟨htype, readable_operatorCondition h h' _⟩
  unfold valueConditions
  cases p.value with
  | null =>
    exact List.forall_mem_singleton.2
      (.compare (readable_column rfl) _ (readable_literal (by decide)))
  | boolean b => exact htyped (readable_typeIs (by decide)) (.operand hlong) (readable_mark _)
  | string x =>
    exact htyped (readable_typeIs (by decide)) (readable_cased htext _)
      (readable_cased (.mark _) _)
  | integer n w =>
    exact htyped (readable_typeIn (by decide) (by decide)) (.operand hlong) (readable_mark _)
  | double x => exact htyped (readable_typeIs (by decide)) (.operand hdouble) (readable_mark _)
  | number n =>
    exact htyped (readable_typeIn (by decide) (by decide)) (.coalesce hlong hdouble)
      (readable_mark _)
  | date t => exact htyped (readable_typeIs (by decide)) (.operand hlong) (readable_mark _)
  | unsupported k => exact List.forall_mem_singleton.2 .never

theorem readable_variableCondition (p : VariablePredicate) :
    (variableCondition s p escape).Readable escape := by
  rw [variableCondition]
  refine .anyRow false .storedVariables (List.append_ne_nil_of_right_ne_nil _ (List.cons_ne_nil _ _))
    ?_
  rw [List.forall_mem_append, List.forall_mem_cons]
  exact ⟨readable_scopeConditions _ _,
    .compare (readable_cased (.column rfl) _) .eq (readable_cased (.mark _) _),
    readable_valueConditions p _⟩

/-! ## All filters -/

/-- The condition of every filter of a sound group. -/
theorem PredicateSet.Sound.readable_condition {k : Connective} (hs : s.Sound k) (c : Criteria)
    {x : Filter} (hx : x ∈ s.filters) : (c.condition s x).Readable c.likeEscape := by
  cases x with
  | term d t =>
    obtain ⟨hkind, hfilled⟩ := (hs.entry d).fits t (mem_filters_term.1 hx)
    exact readable_boundCondition (Dimension.binds_params hkind hfilled) _
  | expression d e => exact readable_boundCondition (d.binds_singleton _) _
  | flag f => exact readable_flagCondition f
  | onVariable p => exact readable_variableCondition p

namespace Criteria

variable {c : Criteria} {f : Forest}

theorem Lays.readable_part (h : c.Lays s f) {id : Nat} {part : Condition}
    (hpart : part ∈ c.parts id) : part.Readable c.likeEscape := by
  obtain ⟨x, hx, rfl⟩ := List.mem_map.1 hpart
  exact (h.sound_node id).readable_condition c hx

/-- The text and the parameters of a filter say what its condition is. -/
theorem Lays.read?_part (h : c.Lays s f) {id : Nat} {part : Condition}
    (hpart : part ∈ c.parts id) : Condition.read? part.text part.params = some part :=
  (h.readable_part hpart).read?_text

end Criteria

end Worklist
