import Mathlib.Algebra.Order.Ring.Int
import Worklist.Proofs.Binary64.Integral
import Worklist.Variable.Matching

/-!
# Comparing numbers

Numbers are compared by their exact values, whatever types they have.  `extended?` is the value of
a number of any type, and `Value.Meets` says which stored numbers a number of a query is compared
with: its own type, or every type if it has none.

All numbers are multiples of `2 ^ -1074`, and `Numeric.scaled` is the multiple.  The comparison is
the order of the multiples (`Numeric.compare?_eq`), which is the order of the values.
`VariableOperator.holds_cmp` takes it to the relation of an operator.
-/

namespace Worklist

/-! ## Values of numbers -/

namespace Numeric

/-- The value of a number. -/
def extended? : Numeric → Option Extended
  | integer n => some (.ofRat n.toInt)
  | decimal x => x.extended?

def IsNaN : Numeric → Prop
  | integer _ => False
  | decimal x => x.isNaN = true

/-- The value as a multiple of `2 ^ -1074`, with an infinity as `2 ^ 1024`. -/
def scaled : Numeric → ℤ
  | integer n => n.toInt * twoPow 1074
  | decimal x => x.scaled

variable {a b : Numeric}

/-- No 64-bit integer reaches the multiples of the infinities. -/
theorem scaled_integer_bounds (n : Int64) :
    -(Binary64.limit : ℤ) < n.toInt * twoPow 1074 ∧ n.toInt * twoPow 1074 < Binary64.limit := by
  have hlimit : (2 : ℤ) ^ 63 * twoPow 1074 < Binary64.limit := by
    have hpow : (2 : ℤ) ^ 63 = twoPow 63 := by decide
    rw [Binary64.limit_eq_mul, Int.natCast_mul, hpow]
    exact Int.mul_lt_mul_of_pos_right (Int.ofNat_lt.2 (twoPow_lt_twoPow (by decide)))
      Binary64.unit_pos
  have hlow := Int.mul_le_mul_of_nonneg_right n.le_toInt Binary64.unit_pos.le
  have hhigh := Int.mul_lt_mul_of_pos_right n.toInt_lt Binary64.unit_pos
  rw [Int.neg_mul] at hlow
  omega

theorem inRange_scaled (h : ¬a.IsNaN) : Binary64.InRange a.scaled := by
  cases a with
  | integer n => exact ⟨(scaled_integer_bounds n).1.le, (scaled_integer_bounds n).2.le⟩
  | decimal x => exact Binary64.inRange_scaled (Bool.eq_false_iff.2 h)

/-- The value of a number is the reading of its multiple. -/
theorem extended?_eq (h : ¬a.IsNaN) : a.extended? = some (Binary64.reading a.scaled) := by
  cases a with
  | integer n =>
    obtain ⟨hlow, hhigh⟩ := scaled_integer_bounds n
    rw [extended?, scaled, Binary64.reading, if_neg hlow.not_ge, if_neg hhigh.not_ge,
      Int.cast_mul, Int.cast_natCast, cast_twoPow, mul_div_cancel_right₀ _ (by positivity)]
  | decimal x => exact Binary64.extended?_eq (Bool.eq_false_iff.2 h)

theorem extended?_eq_none_iff : a.extended? = none ↔ a.IsNaN := by
  cases a with
  | integer n => exact ⟨nofun, nofun⟩
  | decimal x => exact Binary64.extended?_eq_none_iff

/-! ## Order -/

/-- Numbers are ordered as their multiples are. -/
theorem compare?_eq (ha : ¬a.IsNaN) (hb : ¬b.IsNaN) :
    a.compare? b = some (compare a.scaled b.scaled) := by
  cases a with
  | integer m =>
    cases b with
    | integer n =>
      rw [compare?, scaled, scaled, ← cmp_eq_compare, ← cmp_eq_compare,
        cmp_mul_pos_right Binary64.unit_pos]
    | decimal y => exact Binary64.compareInt?_eq m (Bool.eq_false_iff.2 hb)
  | decimal x =>
    cases b with
    | integer n =>
      rw [compare?, Binary64.compareInt?_eq n (Bool.eq_false_iff.2 ha), Option.map_some,
        ← Std.OrientedCmp.eq_swap]
      rfl
    | decimal y =>
      rw [compare?, Binary64.compare?, Bool.eq_false_iff.2 ha, Bool.eq_false_iff.2 hb,
        Bool.or_false, if_neg Bool.false_ne_true]
      rfl

theorem compare?_of_isNaN (h : a.IsNaN ∨ b.IsNaN) : a.compare? b = none := by
  cases a with
  | integer m =>
    cases b with
    | integer n => exact absurd h (by simp [IsNaN])
    | decimal y =>
      have hy : y.isNaN = true := by simpa [IsNaN] using h
      rw [compare?, Binary64.compareInt?, if_pos hy]
  | decimal x =>
    cases b with
    | integer n =>
      have hx : x.isNaN = true := by simpa [IsNaN] using h
      rw [compare?, Binary64.compareInt?, if_pos hx, Option.map_none]
    | decimal y =>
      have hxy : x.isNaN = true ∨ y.isNaN = true := h
      rw [compare?, Binary64.compare?, if_pos (Bool.or_eq_true_iff.2 hxy)]

/-- Numbers have no order exactly if one of them is a NaN, and otherwise that of their values. -/
theorem compare?_spec (a b : Numeric) :
    (a.compare? b = none ↔ a.IsNaN ∨ b.IsNaN) ∧
      ∀ p q, a.extended? = some p → b.extended? = some q → a.compare? b = some (cmp p q) := by
  by_cases h : a.IsNaN ∨ b.IsNaN
  · refine ⟨iff_of_true (compare?_of_isNaN h) h, fun p q hp hq => ?_⟩
    rcases h with h | h
    · rw [extended?_eq_none_iff.2 h] at hp
      cases hp
    · rw [extended?_eq_none_iff.2 h] at hq
      cases hq
  · obtain ⟨ha, hb⟩ := not_or.1 h
    refine ⟨iff_of_false (by rw [compare?_eq ha hb]; exact nofun) h, fun p q hp hq => ?_⟩
    rw [extended?_eq ha, Option.some_inj] at hp
    rw [extended?_eq hb, Option.some_inj] at hq
    rw [← hp, ← hq, compare?_eq ha hb, Binary64.cmp_reading (inRange_scaled ha) (inRange_scaled hb)]

end Numeric

/-! ## Stored numbers and numbers of a query -/

namespace Value

/-- The value of a number, which nothing else has. -/
def extended? : Value → Option Extended
  | integer n _ => some (.ofRat n.toInt)
  | double x => x.extended?
  | number n => n.extended?
  | _ => none

def IsNumeric : Value → Prop
  | integer _ _ => True
  | double _ => True
  | number _ => True
  | _ => False

def IsNaN : Value → Prop
  | double x => x.isNaN = true
  | number n => n.IsNaN
  | _ => False

/-- A stored number and a number of a query that are compared. -/
inductive Meets : Value → Value → Prop where
  | integers (m n : Int64) (v w : IntegerWidth) : Meets (integer m v) (integer n w)
  | doubles (x y : Binary64) : Meets (double x) (double y)
  | number {stored : Value} (h : stored.IsNumeric) (n : Numeric) : Meets stored (number n)

variable {stored query : Value} {ignoreCase : Bool}

/-- A number of any type is a number without one. -/
theorem exists_numeric? (h : stored.IsNumeric) : ∃ a, stored.numeric? = some a := by
  cases stored with
  | integer n w => exact ⟨_, rfl⟩
  | double x => exact ⟨_, rfl⟩
  | number n => exact ⟨_, rfl⟩
  | _ => exact h.elim

theorem of_numeric? {a : Numeric} (h : stored.numeric? = some a) :
    a.extended? = stored.extended? ∧ (a.IsNaN ↔ stored.IsNaN) := by
  cases stored <;> cases h <;> exact ⟨rfl, Iff.rfl⟩

/-- Exactly the numbers that are no NaN have a value. -/
theorem extended?_eq_none_iff : stored.extended? = none ↔ ¬stored.IsNumeric ∨ stored.IsNaN := by
  by_cases h : stored.IsNumeric
  · obtain ⟨a, ha⟩ := exists_numeric? h
    obtain ⟨hextended, hnan⟩ := of_numeric? ha
    rw [← hextended, ← hnan, Numeric.extended?_eq_none_iff, or_iff_right (not_not_intro h)]
  · refine iff_of_true ?_ (.inl h)
    cases stored <;> first | rfl | exact absurd trivial h

theorem exists_extended? (h : stored.IsNumeric) (hnan : ¬stored.IsNaN) :
    ∃ a, stored.extended? = some a :=
  Option.ne_none_iff_exists'.1 fun hnone =>
    (extended?_eq_none_iff.1 hnone).elim (absurd h) hnan

theorem Meets.isNumeric (h : stored.Meets query) : stored.IsNumeric := by
  cases h with
  | integers => trivial
  | doubles => trivial
  | number h => exact h

/-- Values that are compared are compared as numbers. -/
theorem Meets.compare?_eq (h : stored.Meets query) :
    ∃ a b, stored.numeric? = some a ∧ query.numeric? = some b ∧
      stored.compare? query ignoreCase = a.compare? b := by
  cases h with
  | integers m n v w => exact ⟨_, _, rfl, rfl, rfl⟩
  | doubles x y => exact ⟨_, _, rfl, rfl, rfl⟩
  | number h n =>
    obtain ⟨a, ha⟩ := exists_numeric? h
    have hcompare : stored.compare? (.number n) ignoreCase =
        stored.numeric?.bind (·.compare? n) := by
      cases stored <;> rfl
    exact ⟨a, n, ha, rfl, by rw [hcompare, ha, Option.bind_some]⟩

/-- Numbers that are compared have no order exactly if one of them is a NaN, and otherwise that of
their values. -/
theorem Meets.compare?_spec (h : stored.Meets query) (ignoreCase : Bool) :
    (stored.compare? query ignoreCase = none ↔ stored.IsNaN ∨ query.IsNaN) ∧
      ∀ p q, stored.extended? = some p → query.extended? = some q →
        stored.compare? query ignoreCase = some (cmp p q) := by
  obtain ⟨a, b, ha, hb, heq⟩ := h.compare?_eq
  obtain ⟨ha, hnan⟩ := of_numeric? ha
  obtain ⟨hb, hnan'⟩ := of_numeric? hb
  rw [heq, ← ha, ← hb, ← hnan, ← hnan']
  exact Numeric.compare?_spec a b

/-- A number of a query has an order against no other values. -/
theorem meets_of_compare? (h : query.IsNumeric)
    (hsome : stored.compare? query ignoreCase ≠ none) : Meets stored query := by
  cases query with
  | integer n w => cases stored <;> first | exact .integers .. | exact absurd rfl hsome
  | double y => cases stored <;> first | exact .doubles .. | exact absurd rfl hsome
  | number n =>
    refine .number ?_ n
    cases stored <;> first | exact trivial | exact absurd rfl hsome
  | _ => exact h.elim

end Value

/-! ## Operators -/

/-- The relation of an operator.  LIKE relates no numbers. -/
def VariableOperator.Relates (operator : VariableOperator) (a b : Extended) : Prop :=
  match operator with
  | equals => a = b
  | notEquals => a ≠ b
  | greaterThan => b < a
  | greaterThanOrEqual => b ≤ a
  | lessThan => a < b
  | lessThanOrEqual => a ≤ b
  | like => False

theorem VariableOperator.holds_cmp (operator : VariableOperator) (a b : Extended) :
    operator.holds (cmp a b) = true ↔ operator.Relates a b := by
  rcases lt_trichotomy a b with h | rfl | h
  · rw [(cmp_eq_lt_iff a b).2 h]
    cases operator <;> simp [holds, Relates, h, h.le, h.ne, h.not_gt, h.not_ge]
  · rw [cmp_self_eq_eq]
    cases operator <;> simp [holds, Relates]
  · rw [(cmp_eq_gt_iff a b).2 h]
    cases operator <;> simp [holds, Relates, h, h.le, h.ne', h.not_gt, h.not_ge]

/-! ## Predicates -/

namespace VariablePredicate

variable {p : VariablePredicate} {stored : Value} {ignoreCase : Bool} {escape : Char}

/-- A predicate on a number holds if there is an order and the operator holds of it. -/
theorem matchesValue_iff (h : p.value.IsNumeric) :
    p.matchesValue stored ignoreCase escape = true ↔
      ∃ order, stored.compare? p.value ignoreCase = some order ∧
        p.operator.holds order = true := by
  unfold matchesValue
  generalize p.value = value at h
  have hnever : ∀ order, VariableOperator.like.holds order ≠ true := fun _ => nofun
  cases value with
  | integer | double | number =>
    cases p.operator with
    | like => simp [hnever]
    | _ =>
      simp only
      cases stored.compare? _ ignoreCase <;> simp
  | _ => exact h.elim

/-- A predicate on a number holds exactly of the stored numbers that it is compared with and that
are in the relation of its operator. -/
theorem matchesValue_number_iff (h : p.value.IsNumeric) :
    p.matchesValue stored ignoreCase escape = true ↔
      stored.Meets p.value ∧ ∃ a b, stored.extended? = some a ∧ p.value.extended? = some b ∧
        p.operator.Relates a b := by
  rw [matchesValue_iff h]
  constructor
  · rintro ⟨order, horder, hholds⟩
    have hmeets : stored.Meets p.value :=
      Value.meets_of_compare? h (by rw [horder]; exact nofun)
    obtain ⟨hnone, hsome⟩ := hmeets.compare?_spec ignoreCase
    have hnan : ¬(stored.IsNaN ∨ p.value.IsNaN) := fun hnan => by
      rw [hnone.2 hnan] at horder
      cases horder
    obtain ⟨a, ha⟩ := Value.exists_extended? hmeets.isNumeric (not_or.1 hnan).1
    obtain ⟨b, hb⟩ := Value.exists_extended? h (not_or.1 hnan).2
    obtain rfl : order = cmp a b := Option.some.inj (horder.symm.trans (hsome a b ha hb))
    exact ⟨hmeets, a, b, ha, hb, (p.operator.holds_cmp a b).1 hholds⟩
  · rintro ⟨hmeets, a, b, ha, hb, hrelates⟩
    exact ⟨_, (hmeets.compare?_spec ignoreCase).2 a b ha hb, (p.operator.holds_cmp a b).2 hrelates⟩

/-- Numbers are compared exactly.  A stored number and a number of a query that are compared have
no order exactly if one of them is a NaN, and otherwise the order of their values.  A predicate on
a number holds of a stored value exactly if they are compared and their values are in the relation
of the operator.  So nothing holds when a NaN is involved or no number is stored, and integers and
doubles of a query never meet each other. -/
theorem numbers_compared_exactly (stored : Value) (ignoreCase : Bool) (escape : Char) :
    (∀ query, stored.Meets query →
      (stored.compare? query ignoreCase = none ↔ stored.IsNaN ∨ query.IsNaN) ∧
      ∀ a b, stored.extended? = some a → query.extended? = some b →
        stored.compare? query ignoreCase = some (cmp a b)) ∧
    ∀ p : VariablePredicate, p.value.IsNumeric →
      (p.matchesValue stored ignoreCase escape = true ↔
        stored.Meets p.value ∧ ∃ a b, stored.extended? = some a ∧ p.value.extended? = some b ∧
          p.operator.Relates a b) ∧
      (stored.IsNaN ∨ p.value.IsNaN ∨ ¬stored.IsNumeric →
        p.matchesValue stored ignoreCase escape = false) ∧
      (∀ n w x, p.value = .integer n w → stored = .double x →
        p.matchesValue stored ignoreCase escape = false) ∧
      ∀ y m w, p.value = .double y → stored = .integer m w →
        p.matchesValue stored ignoreCase escape = false := by
  refine ⟨fun query h => h.compare?_spec ignoreCase, fun p h => ?_⟩
  have hiff : p.matchesValue stored ignoreCase escape = true ↔ _ := matchesValue_number_iff h
  refine ⟨hiff, fun hnone => ?_, fun n w x hvalue hstored => ?_, fun y m w hvalue hstored => ?_⟩
  · rw [Bool.eq_false_iff, Ne, hiff]
    rintro ⟨-, a, b, ha, hb, -⟩
    have hstored : ¬(¬stored.IsNumeric ∨ stored.IsNaN) := by
      rw [← Value.extended?_eq_none_iff, ha]
      exact nofun
    have hquery : ¬(¬p.value.IsNumeric ∨ p.value.IsNaN) := by
      rw [← Value.extended?_eq_none_iff, hb]
      exact nofun
    rcases hnone with hnan | hnan | hother
    · exact hstored (.inr hnan)
    · exact hquery (.inr hnan)
    · exact hstored (.inl hother)
  · rw [Bool.eq_false_iff, Ne, hiff, hvalue, hstored]
    rintro ⟨hmeets, -⟩
    cases hmeets
  · rw [Bool.eq_false_iff, Ne, hiff, hvalue, hstored]
    rintro ⟨hmeets, -⟩
    cases hmeets

/-- A predicate that a variable differs from a number. -/
def differs (value : Value) (h : objection? "amount" value .notEquals = none) : VariablePredicate :=
  ⟨"amount", value, .notEquals, .processInstance, false, h⟩

/-- `2 ^ 53 + 1` against the double `2 ^ 53`, to which it would be rounded; a NaN; and the same
number as an integer and as a double. -/
theorem numbers_compared_exactly_neighbours :
    (Value.integer 9007199254740993 .long).compare? (.number (.decimal ⟨0x4340000000000000⟩))
        false =
        some (cmp (Extended.ofRat 9007199254740993) (Extended.ofRat 9007199254740992)) ∧
      (∃ a b, (Value.integer 9007199254740993 .long).extended? = some a ∧
        (Value.number (.decimal ⟨0x4340000000000000⟩)).extended? = some b ∧ a ≠ b) ∧
      (differs (.number (.integer 1)) rfl).matchesValue (.double ⟨0x7FF8000000000000⟩) false '\\' =
        false ∧
      (differs (.integer 1 .long) rfl).matchesValue (.double ⟨0x4000000000000000⟩) false '\\' =
        false ∧
      (differs (.double ⟨0x4000000000000000⟩) rfl).matchesValue (.integer 1 .long) false '\\' =
        false := by
  refine ⟨?_, ?_, ?_, ?_, ?_⟩
  · refine ((numbers_compared_exactly _ false '\\').1 _ (.number (by exact trivial) _)).2 _ _ ?_ ?_
    · rfl
    · decide +kernel
  · have hmatches : (differs (.number (.decimal ⟨0x4340000000000000⟩)) rfl).matchesValue
        (.integer 9007199254740993 .long) false '\\' = true := by decide +kernel
    exact (((numbers_compared_exactly _ false '\\').2 _ (by exact trivial)).1.1 hmatches).2
  · exact ((numbers_compared_exactly _ false '\\').2 _ (by exact trivial)).2.1 (.inl rfl)
  · exact ((numbers_compared_exactly _ false '\\').2 _ (by exact trivial)).2.2.1 _ _ _ rfl rfl
  · exact ((numbers_compared_exactly _ false '\\').2 _ (by exact trivial)).2.2.2 _ _ _ rfl rfl

end VariablePredicate

end Worklist
