import Worklist.Proofs.Criteria.Atoms
import Worklist.Proofs.Criteria.Placeholders
import Worklist.Proofs.Sql.Quotes
import Worklist.Wire.Config

/-!
# Literals of a clause

The escape character of the settings is written between quotes behind every pattern.  Settings can
make it a quote, and then every pattern leaves one quote over: a clause with an odd number of
patterns ends within a literal.

* `Filter.isPattern` says which filters compare with a pattern; `escapes_condition` says that these
  write the escape character, once.
* `clause_terminated_iff` says exactly when all literals of a clause are terminated.
* `exists_unterminated` are settings and a query for which they are not.
-/

namespace Worklist

open Sql

/-! ## Patterns -/

/-- Whether values of a dimension are patterns. -/
def Dimension.isPattern (d : Dimension) : Bool := d.comparison == .like || d.comparison == .notLike

/-- Whether a filter compares with a pattern. -/
def Filter.isPattern : Filter → Bool
  | .term d _ => d.isPattern
  | .expression d _ => d.isPattern
  | .flag _ => false
  | .onVariable p => p.operator == .like

section Escapes

variable {s : PredicateSet} {escape : Char}

theorem escapes_candidateCondition (link : Condition) :
    (candidateCondition s link).escapes = link.escapes := by
  rw [candidateCondition]
  split <;> simp [candidateLink, Condition.escapes, escapesOfAll]

theorem escapes_candidateUserLink (user : Param) (groups : List String) :
    (candidateUserLink user groups).escapes = [] := by
  rw [candidateUserLink]
  split <;> simp [Condition.escapes, escapesOfAll]

theorem escapes_columnCondition (d : Dimension) (params : List Param) :
    (columnCondition d params escape).escapes = if d.isPattern then [escape] else [] := by
  unfold columnCondition Dimension.isPattern
  cases d.comparison <;>
    simp [involvedCondition, candidateLink, Condition.escapes, escapesOfAll]

theorem escapes_boundCondition (d : Dimension) (params : List Param) (groups : List String) :
    (boundCondition s d params groups escape).escapes = if d.isPattern then [escape] else [] := by
  by_cases hd : d.isCandidate = true
  · cases d <;> cases hd
    case candidateUser.refl =>
      exact (escapes_candidateCondition _).trans (escapes_candidateUserLink _ _)
    case candidateGroup.refl => exact escapes_candidateCondition _
    case candidateGroupIn.refl => exact escapes_candidateCondition _
  · rw [Bool.not_eq_true] at hd
    rw [boundCondition_column hd, escapes_columnCondition]

theorem escapes_flagCondition (f : Flag) : (flagCondition s f).escapes = [] := by
  cases f <;> simp [flagCondition, escapes_candidateCondition, candidateLink, Condition.escapes,
    escapesOfAll]

theorem escapes_operatorCondition (operator : VariableOperator) (left right : Expr) :
    (operatorCondition operator left right escape).escapes =
      if operator == .like then [escape] else [] := by
  cases operator <;> rfl

theorem escapesOfAll_scopeConditions (scope : VariableScope) (isLocal : Bool) :
    escapesOfAll (scopeConditions scope isLocal) = [] := by
  cases scope <;> cases isLocal <;> rfl

/-- Nothing is compared with null as a pattern. -/
theorem operator_of_null {p : VariablePredicate} (hvalue : p.value = .null) :
    (p.operator == .like) = false := by
  have hobjection := p.unobjectionable
  unfold VariablePredicate.objection? at hobjection
  rw [hvalue] at hobjection
  split at hobjection
  · cases hobjection
  · cases hoperator : p.operator <;>
      simp [hoperator, Value.isNullOrBoolean, VariableOperator.isIdentity] at hobjection ⊢

/-- Nothing is compared with a value of an unsupported kind. -/
theorem value_ne_unsupported (p : VariablePredicate) (kind : UnsupportedKind) :
    p.value ≠ .unsupported kind := by
  intro hvalue
  have hobjection := p.unobjectionable
  unfold VariablePredicate.objection? at hobjection
  rw [hvalue] at hobjection
  split at hobjection <;> cases hobjection

theorem escapesOfAll_valueConditions (p : VariablePredicate) (ignoreCase : Bool) :
    escapesOfAll (valueConditions p ignoreCase escape) =
      if p.operator == .like then [escape] else [] := by
  unfold valueConditions
  cases hvalue : p.value with
  | null =>
    rw [operator_of_null hvalue]
    rfl
  | unsupported kind => exact absurd hvalue (value_ne_unsupported p kind)
  | _ =>
    simp only [escapesOfAll, typeIs, typeIn, Condition.escapes, escapes_operatorCondition,
      List.nil_append, List.append_nil]

theorem escapes_variableCondition (p : VariablePredicate) :
    (variableCondition s p escape).escapes = if p.operator == .like then [escape] else [] := by
  rw [variableCondition, Condition.escapes, escapesOfAll_eq_flatMap, List.flatMap_append,
    List.flatMap_cons, ← escapesOfAll_eq_flatMap, ← escapesOfAll_eq_flatMap,
    escapesOfAll_scopeConditions, escapesOfAll_valueConditions]
  rfl

end Escapes

namespace Criteria

variable {c : Criteria} {s : PredicateSet} {f : Forest}

/-- A filter writes the escape character if it compares with a pattern. -/
theorem escapes_condition (c : Criteria) (s : PredicateSet) (x : Filter) :
    (c.condition s x).escapes = if x.isPattern then [c.likeEscape] else [] := by
  cases x with
  | term d t => exact escapes_boundCondition d _ _
  | expression d e => exact escapes_boundCondition d _ _
  | flag f => exact escapes_flagCondition f
  | onVariable p => exact escapes_variableCondition p

/-! ## Quotes of a clause -/

/-- The number of filters of a query that compare with patterns. -/
def patterns (c : Criteria) : Nat :=
  (c.tree.preorder.flatMap fun id => (c.tree.node id).predicates.filters).countP Filter.isPattern

/-- The escape characters in a clause, one for each pattern. -/
def escapes (c : Criteria) : List Char :=
  c.tree.preorder.flatMap fun id => (c.parts id).flatMap Condition.escapes

theorem flatMap_ite_singleton {α β : Type} (as : List α) (p : α → Bool) (b : β) :
    (as.flatMap fun a => if p a then [b] else []) = List.replicate (as.countP p) b := by
  induction as with
  | nil => rfl
  | cons a as ih =>
    rw [List.flatMap_cons, ih, List.countP_cons]
    cases p a
    · rfl
    · exact List.replicate_succ.symm

theorem escapes_eq_replicate (c : Criteria) :
    c.escapes = List.replicate c.patterns c.likeEscape := by
  have hparts : ∀ id : NodeId, (c.parts id).flatMap Condition.escapes =
      (c.tree.node id).predicates.filters.flatMap fun x =>
        if x.isPattern then [c.likeEscape] else [] := by
    intro id
    rw [parts, List.flatMap_map]
    simp only [escapes_condition]
  rw [escapes, patterns, ← flatMap_ite_singleton, List.flatMap_assoc]
  simp only [hparts]

theorem Lays.paired_spellToken (h : c.Lays s f) (t : Token) :
    Paired (c.spellToken t) ((c.ofToken Condition.escapes t).count '\'') := by
  cases t with
  | atom id i =>
    rw [spellToken, ofToken]
    cases hpart : (c.parts id)[i]? with
    | none => exact paired_nil
    | some part => exact part.paired (h.readable_part (List.mem_of_getElem? hpart)).plain
  | connective k =>
    rw [spellToken_connective]
    exact (isQuiet_separator k).paired
  | openBracket => exact paired_open
  | closeBracket => exact paired_close

/-- The quotes in the text of tokens are pairs, but for the escape characters. -/
theorem Lays.paired_spell (h : c.Lays s f) (ts : List Token) :
    Paired (c.spell ts) ((c.gathered Condition.escapes ts).count '\'') := by
  induction ts with
  | nil => exact paired_nil
  | cons t ts ih =>
    rw [spell, gathered_cons, List.count_append]
    exact (h.paired_spellToken t).append ih

theorem Lays.paired_clause (h : c.Lays s f) : Paired c.clause.text (c.escapes.count '\'') := by
  rw [h.text_tokens, escapes, ← h.gathered_tokens]
  exact h.paired_spell _

/-- The literals of a clause are terminated exactly if the escape character is no quote or the
number of patterns is even. -/
theorem clause_terminated_iff {q : Query} (hq : q.Reachable) {identity : IdentityResolver}
    {config : Config} (hc : q.compile identity config = .ok c) :
    EndsOutside c.clause.text ↔ config.likeEscape ≠ '\'' ∨ c.patterns % 2 = 0 := by
  obtain ⟨s, f, h⟩ := hq.lays hc
  obtain ⟨-, -, -, hescape⟩ := Query.compile_eq_ok hc
  obtain ⟨pairs, hcount⟩ := h.paired_clause
  rw [endsOutside_iff, hcount, c.escapes_eq_replicate, List.count_replicate, hescape]
  by_cases hquote : config.likeEscape = '\''
  · simp [hquote]
  · simp [hquote]

/-- Two patterns and the literals of a filter on candidates, with a quote as escape character. -/
theorem clause_terminated_iff_built :
    ∃ (q : Query) (c : Criteria), q.Reachable ∧
      q.compile (fun _ => []) { likeEscape := '\'' } = .ok c ∧ c.patterns = 2 ∧
        EndsOutside c.clause.text := by
  let q := Query.built [.setTerm .nameLike (.text "check%") rfl,
    .setTerm .candidateUser (.text "ada") rfl, .openGroup .or,
    .setExpression .assigneeLike "pattern" rfl, .setFlag .assigned, .closeGroup .or]
  have hpatterns : (q.compile (fun _ => []) { likeEscape := '\'' }).toOption.map patterns =
      some 2 := by decide +kernel
  have hq : q.Reachable := Query.reachable_built _
  obtain ⟨c, hc, htwo⟩ := Option.map_eq_some_iff.1 hpatterns
  rw [toOption_eq_some] at hc
  exact ⟨q, c, hq, hc, htwo, (clause_terminated_iff hq hc).2 (.inr (by rw [htwo]))⟩

/-- Settings that make the escape character a quote are accepted, and with them a single pattern
leaves a literal open. -/
theorem exists_unterminated :
    ∃ (text : String) (config : Config) (q : Query) (c : Criteria),
      Config.ofText text = .ok config ∧ q.Reachable ∧ q.compile (fun _ => []) config = .ok c ∧
        c.clause.text = "RES.NAME_ LIKE ? ESCAPE '''" ∧ ¬EndsOutside c.clause.text := by
  let text := "\x7b\"like_escape\": \"'\"\x7d"
  let config : Config := { likeEscape := '\'' }
  let q := Query.built [.setTerm .nameLike (.text "a") rfl]
  have hconfig : (Config.ofText text).toOption = some config := by decide +kernel
  have hclause : (q.compile (fun _ => []) config).toOption.map (·.clause.text) =
      some "RES.NAME_ LIKE ? ESCAPE '''" := by decide +kernel
  obtain ⟨c, hc, htext⟩ := Option.map_eq_some_iff.1 hclause
  rw [toOption_eq_some] at hconfig hc
  refine ⟨text, config, q, c, hconfig, Query.reachable_built _, hc, htext, ?_⟩
  rw [htext]
  decide

end Criteria

end Worklist
