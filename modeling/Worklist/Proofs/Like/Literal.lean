import Worklist.Proofs.Like.Matching
import Worklist.Proofs.Text.Case
import Worklist.Variable.Matching

/-!
# Patterns without wildcards

A text with neither a wildcard nor the escape character is a pattern of literals, so a value
matches it if both have the same characters (`likeMatches_literal`).  LIKE with such a text asks
the same as EQUALS as long as case counts.  Without regard to case LIKE compares folded characters
and EQUALS lower cases, which are two notions of case: the operators agree on all texts without
contested letters (`literal_like`), and on `ſ`, a long s, they do not (`exists_like_unequal`).
-/

namespace Worklist

namespace Like

/-- A text with neither a wildcard nor the escape character. -/
def IsLiteral (escape : Char) (text : List Char) : Prop :=
  ∀ c ∈ text, c ≠ escape ∧ c ≠ '%' ∧ c ≠ '_'

instance (escape : Char) (text : List Char) : Decidable (IsLiteral escape text) :=
  List.decidableBAll _ text

variable {escape : Char} {ignoreCase : Bool} {text : List Char}

theorem items_of_isLiteral (h : IsLiteral escape text) : items escape text = text.map .literal := by
  induction text with
  | nil => rw [items, List.map_nil]
  | cons c text ih =>
    obtain ⟨⟨hescape, hmany, hone⟩, htext⟩ := List.forall_mem_cons.1 h
    rw [items_of_ne hescape, if_neg hmany, if_neg hone, ih htext, List.map_cons]

/-- Literals take one character each. -/
theorem splits_literals {value : List Char} : Splits ignoreCase (text.map .literal) value ↔
    value.map (normal ignoreCase) = text.map (normal ignoreCase) := by
  induction text generalizing value with
  | nil => rw [List.map_nil, List.map_nil, splits_nil, List.map_eq_nil_iff]
  | cons p text ih =>
    rw [List.map_cons, splits_cons, List.map_cons, List.map_eq_cons_iff]
    constructor
    · rintro ⟨_, rest, rfl, ⟨c, rfl, halike⟩, hrest⟩
      exact ⟨c, rest, rfl, beq_iff_eq.1 (normal_beq.2 halike), ih.1 hrest⟩
    · rintro ⟨c, rest, rfl, hnormal, hrest⟩
      exact ⟨[c], rest, rfl, ⟨c, rfl, normal_beq.1 (beq_iff_eq.2 hnormal)⟩, ih.2 hrest⟩

theorem likeMatches_literal {value pattern : String} (h : IsLiteral escape pattern.toList) :
    likeMatches value pattern escape ignoreCase = true ↔
      value.toList.map (normal ignoreCase) = pattern.toList.map (normal ignoreCase) := by
  rw [likeMatches_iff, items_of_isLiteral h, splits_literals]

end Like

namespace VariablePredicate

/-- A predicate that compares with a text by an operator. -/
def Asks (q : VariablePredicate) (operator : VariableOperator) (text : String) : Prop :=
  q.operator = operator ∧ q.value = .string text

/-- A predicate on a variable of the task. -/
def asking (operator : VariableOperator) (text : String) : VariablePredicate where
  name := "v"
  value := .string text
  operator := operator
  scope := .taskLocal
  isLocal := false
  unobjectionable := if_neg (by decide)

theorem asking_asks (operator : VariableOperator) (text : String) :
    (asking operator text).Asks operator text := ⟨rfl, rfl⟩

variable {q like equals : VariablePredicate} {p v : String} {escape : Char} {ignoreCase : Bool}

theorem matchesValue_literal (h : q.Asks .like p) (hp : Like.IsLiteral escape p.toList) :
    q.matchesValue (.string v) ignoreCase escape = true ↔
      v.toList.map (Like.normal ignoreCase) = p.toList.map (Like.normal ignoreCase) := by
  simp only [matchesValue, h.1, h.2]
  exact Like.likeMatches_literal hp

theorem matchesValue_equals (h : q.Asks .equals p) :
    q.matchesValue (.string v) ignoreCase escape = true ↔
      Value.comparable ignoreCase v = Value.comparable ignoreCase p := by
  simp only [matchesValue, h.1, h.2, Value.compare?, VariableOperator.holds, beq_iff_eq]
  exact Std.LawfulEqOrd.compare_eq_iff_eq

/-- LIKE with a text without wildcards compares characters, which it folds if case does not count,
and EQUALS compares texts, in lower case then.  So LIKE asks the same as EQUALS if case counts, and
if it does not, then of all texts without contested letters. -/
theorem literal_like_agrees (hlike : like.Asks .like p) (hequals : equals.Asks .equals p)
    (hp : Like.IsLiteral escape p.toList) (v : String) :
    (∀ ignoreCase,
      (like.matchesValue (.string v) ignoreCase escape = true ↔
        v.toList.map (Like.normal ignoreCase) = p.toList.map (Like.normal ignoreCase)) ∧
      (equals.matchesValue (.string v) ignoreCase escape = true ↔
        Value.comparable ignoreCase v = Value.comparable ignoreCase p)) ∧
    like.matchesValue (.string v) false escape = equals.matchesValue (.string v) false escape ∧
    (Text.Uncontested (v.toList ++ p.toList) →
      like.matchesValue (.string v) true escape = equals.matchesValue (.string v) true escape) := by
  refine ⟨fun ignoreCase => ⟨matchesValue_literal hlike hp, matchesValue_equals hequals⟩, ?_,
    fun huncontested => ?_⟩
  · have hnormal : Like.normal false = id := rfl
    have hcomparable : Value.comparable false = id := rfl
    rw [Bool.eq_iff_iff, matchesValue_literal hlike hp, matchesValue_equals hequals, hnormal,
      hcomparable, List.map_id, List.map_id, String.toList_inj, id, id]
  · obtain ⟨hv, hp'⟩ := List.forall_mem_append.1 huncontested
    have hcomparable : Value.comparable true = Text.lower := rfl
    rw [Bool.eq_iff_iff, matchesValue_literal hlike hp, matchesValue_equals hequals, hcomparable,
      Text.lower, Text.lower, String.ofList_inj]
    exact Text.map_fold_eq_iff hv hp'

/-- Ordinary letters are the same to LIKE and EQUALS in either case. -/
theorem literal_like_agrees_ascii :
    Like.IsLiteral '\\' "key".toList ∧ Text.Uncontested ("KEY".toList ++ "key".toList) ∧
      (asking .like "key").matchesValue (.string "KEY") true '\\' =
        (asking .equals "key").matchesValue (.string "KEY") true '\\' := by
  have hp : Like.IsLiteral '\\' "key".toList := by decide
  have huncontested : Text.Uncontested ("KEY".toList ++ "key".toList) := by decide
  obtain ⟨-, -, hsame⟩ := literal_like_agrees (asking_asks .like "key")
    (asking_asks .equals "key") hp "KEY"
  exact ⟨hp, huncontested, hsame huncontested⟩

/-- A long s folds to `s`, as `S` does, but it is a small letter and so its own lower case. -/
theorem exists_like_unequal :
    ∃ like equals : VariablePredicate, like.Asks .like "S" ∧ equals.Asks .equals "S" ∧
      Like.IsLiteral '\\' "S".toList ∧
      like.matchesValue (.string "\u017F") true '\\' = true ∧
      equals.matchesValue (.string "\u017F") true '\\' = false := by
  refine ⟨asking .like "S", asking .equals "S", asking_asks _ _, asking_asks _ _, by decide, ?_, ?_⟩
  · decide
  · decide

end VariablePredicate

end Worklist
