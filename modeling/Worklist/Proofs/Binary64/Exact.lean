import Mathlib.Algebra.Order.Ring.Rat
import Mathlib.Algebra.Order.Field.Basic
import Mathlib.Order.Compare
import Mathlib.Order.WithBot
import Mathlib.Tactic.FieldSimp
import Mathlib.Tactic.Ring
import Worklist.Binary64

/-!
# The exact values of binary64 numbers

A number that is no NaN stands for a rational number or for an infinity.  `Binary64.toRat` is the
rational number that the fields of a word denote, and `Binary64.extended?` adds the infinities and
leaves NaNs without a value.

The comparisons work with `scaled`, a multiple of `2 ^ -1074` in which an infinity counts as
`2 ^ 1024`.  `reading` takes such a multiple back to the value.  It keeps the order (`reading_lt`),
so an order of multiples is the order of the values (`cmp_reading`).
-/

namespace Worklist

/-! ## Powers of two -/

theorem twoPow_pos (n : Nat) : 0 < twoPow n := Nat.two_pow_pos n

theorem twoPow_add (m n : Nat) : twoPow (m + n) = twoPow m * twoPow n := Nat.pow_add 2 m n

theorem twoPow_le_twoPow {m n : Nat} (h : m ≤ n) : twoPow m ≤ twoPow n :=
  Nat.pow_le_pow_right (by decide) h

theorem twoPow_lt_twoPow {m n : Nat} (h : m < n) : twoPow m < twoPow n :=
  Nat.pow_lt_pow_right (by decide) h

theorem twoPow_dvd_twoPow {m n : Nat} (h : m ≤ n) : twoPow m ∣ twoPow n := Nat.pow_dvd_pow 2 h

theorem cast_twoPow (n : Nat) : ((twoPow n : ℕ) : ℚ) = 2 ^ n := by
  rw [show twoPow n = 2 ^ n from rfl, Nat.cast_pow, Nat.cast_ofNat]

/-! ## Rational numbers with infinities -/

/-- A rational number or one of the two infinities. -/
abbrev Extended := WithBot (WithTop ℚ)

namespace Extended

/-- A rational number without an infinity. -/
def ofRat (q : ℚ) : Extended := ((q : WithTop ℚ) : WithBot (WithTop ℚ))

theorem ofRat_lt_ofRat {p q : ℚ} : ofRat p < ofRat q ↔ p < q := by
  rw [ofRat, ofRat, WithBot.coe_lt_coe, WithTop.coe_lt_coe]

theorem bot_lt_ofRat (q : ℚ) : (⊥ : Extended) < ofRat q := WithBot.bot_lt_coe _

theorem ofRat_lt_top (q : ℚ) : ofRat q < (⊤ : Extended) :=
  WithBot.coe_lt_coe.2 (WithTop.coe_lt_top q)

end Extended

namespace Binary64

variable {x y : Binary64}

/-! ## The values that words denote -/

/-- The value of a finite number.  A word whose exponent field is zero has no hidden bit. -/
def toRat (x : Binary64) : ℚ :=
  let sign : ℚ := if x.isNegative then -1 else 1
  if x.exponentField = 0 then sign * (x.fraction / 2 ^ 52) * 2 ^ (-1022 : ℤ)
  else sign * (1 + x.fraction / 2 ^ 52) * 2 ^ ((x.exponentField : ℤ) - 1023)

/-- The value of a number, which a NaN does not have. -/
def extended? (x : Binary64) : Option Extended :=
  if x.isNaN then none
  else if x.isFinite then some (.ofRat x.toRat)
  else some (if x.isNegative then ⊥ else ⊤)

/-- Exactly the NaNs have no value. -/
theorem extended?_eq_none_iff : x.extended? = none ↔ x.isNaN = true := by
  rw [extended?]
  split
  · simp [*]
  · split <;> simp [*]

/-! ## Bounds on the fields -/

theorem exponentField_lt (x : Binary64) : x.exponentField < 2048 := Nat.mod_lt _ (twoPow_pos 11)

theorem fraction_lt (x : Binary64) : x.fraction < twoPow 52 := Nat.mod_lt _ (twoPow_pos 52)

theorem significand_lt (x : Binary64) : x.significand < twoPow 53 := by
  have hfraction := x.fraction_lt
  have hpow : twoPow 53 = twoPow 52 + twoPow 52 := rfl
  rw [significand]
  split <;> omega

/-- A magnitude is bounded by the exponent field alone. -/
theorem magnitude_lt {e : Nat} (h : x.unit ≤ e) : x.magnitude < twoPow (53 + e) := by
  rw [twoPow_add]
  exact Nat.mul_lt_mul_of_lt_of_le x.significand_lt (twoPow_le_twoPow h) (twoPow_pos e)

/-- The least multiple of `2 ^ -1074` that is too large for a finite number. -/
def limit : Nat := twoPow 2098

theorem limit_pos : 0 < limit := by
  rw [limit]
  exact twoPow_pos _

theorem limit_eq_mul : limit = twoPow 1024 * twoPow 1074 := by
  rw [limit, ← twoPow_add]

theorem magnitude_lt_limit (h : x.isFinite = true) : x.magnitude < limit := by
  refine magnitude_lt (e := 2045) ?_
  have hlt := x.exponentField_lt
  have hne : x.exponentField ≠ 2047 := by simpa [isFinite] using h
  rw [unit]
  omega

/-- An infinity counts as the limit. -/
theorem magnitude_eq_limit (hnan : x.isNaN = false) (h : x.isFinite = false) :
    x.magnitude = limit := by
  have hexponent : x.exponentField = 2047 := by simpa [isFinite] using h
  have hfraction : x.fraction = 0 := by simpa [isNaN, hexponent] using hnan
  rw [magnitude, significand, unit, hexponent, hfraction, if_neg (by decide), Nat.add_zero,
    ← twoPow_add, limit]

/-! ## Multiples of the smallest number -/

/-- The power of two that a word denotes, counted from `2 ^ -1074`. -/
theorem two_zpow_unit (e : ℤ) (u : Nat) (h : e + 1022 = u) :
    (2 : ℚ) ^ e = 2 ^ 52 * 2 ^ u / 2 ^ 1074 := by
  rw [show e = ((52 + u : ℕ) : ℤ) - ((1074 : ℕ) : ℤ) by push_cast; omega,
    zpow_sub₀ two_ne_zero, zpow_natCast, zpow_natCast, pow_add]

/-- The value of a finite number is a multiple of `2 ^ -1074`. -/
theorem toRat_eq (x : Binary64) : x.toRat = x.scaled / 2 ^ 1074 := by
  have hscaled : (x.scaled : ℚ) =
      (if x.isNegative then -1 else 1) * (x.significand * 2 ^ x.unit) := by
    rw [scaled, magnitude]
    split <;> push_cast [cast_twoPow] <;> ring
  rw [hscaled, toRat, significand, unit]
  split
  next hexponent =>
    rw [two_zpow_unit (-1022) 0 rfl, hexponent, Nat.zero_sub]
    field_simp
  next hexponent =>
    have hunit : (x.exponentField : ℤ) - 1023 + 1022 = ((x.exponentField - 1 : ℕ) : ℤ) := by omega
    rw [two_zpow_unit _ _ hunit, Nat.cast_add, cast_twoPow]
    field_simp

/-- What a multiple of `2 ^ -1074` stands for: beyond the finite numbers there is one infinity on
each side. -/
def reading (m : ℤ) : Extended :=
  if m ≤ -limit then ⊥ else if limit ≤ m then ⊤ else .ofRat (m / 2 ^ 1074)

/-- The multiples up to those of the infinities. -/
def InRange (m : ℤ) : Prop := -(limit : ℤ) ≤ m ∧ m ≤ limit

/-- The reading keeps the order up to the infinities. -/
theorem reading_lt {m n : ℤ} (hm : InRange m) (hn : InRange n) (hlt : m < n) :
    reading m < reading n := by
  rw [reading, reading]
  by_cases hbot : m ≤ -limit
  · rw [if_pos hbot, if_neg (by have := hm.1; omega)]
    split
    · exact bot_lt_top
    · exact Extended.bot_lt_ofRat _
  · rw [if_neg hbot, if_neg (by have := hn.2; omega), if_neg (by omega)]
    split
    · exact Extended.ofRat_lt_top _
    · exact Extended.ofRat_lt_ofRat.2 (div_lt_div_of_pos_right (Int.cast_lt.2 hlt)
        (pow_pos two_pos _))

/-- So the order of multiples is the order of their readings. -/
theorem cmp_reading {m n : ℤ} (hm : InRange m) (hn : InRange n) :
    cmp (reading m) (reading n) = compare m n := by
  rcases lt_trichotomy m n with hlt | rfl | hgt
  · rw [(cmp_eq_lt_iff _ _).2 (reading_lt hm hn hlt), compare_lt_iff_lt.2 hlt]
  · rw [cmp_self_eq_eq, compare_eq_iff_eq.2 rfl]
  · rw [(cmp_eq_gt_iff _ _).2 (reading_lt hn hm hgt), compare_gt_iff_gt.2 hgt]

theorem inRange_scaled (h : x.isNaN = false) : InRange x.scaled := by
  have hle : x.magnitude ≤ limit := by
    cases hfinite : x.isFinite with
    | true => exact (magnitude_lt_limit hfinite).le
    | false => exact (magnitude_eq_limit h hfinite).le
  rw [scaled]
  split <;> exact ⟨by omega, by omega⟩

/-- The value of a number is the reading of its multiple. -/
theorem extended?_eq (h : x.isNaN = false) : x.extended? = some (reading x.scaled) := by
  rw [extended?, h, if_neg Bool.false_ne_true, reading]
  cases hfinite : x.isFinite with
  | true =>
    have hlt := magnitude_lt_limit hfinite
    have hbounds : -(limit : ℤ) < x.scaled ∧ x.scaled < limit := by
      rw [scaled]
      split <;> omega
    rw [if_pos rfl, if_neg hbounds.1.not_ge, if_neg hbounds.2.not_ge, toRat_eq]
  | false =>
    have hpos := limit_pos
    rw [scaled, magnitude_eq_limit h hfinite, if_neg Bool.false_ne_true]
    cases x.isNegative with
    | true => rw [if_pos rfl, if_pos rfl, if_pos le_rfl]
    | false =>
      rw [if_neg Bool.false_ne_true, if_neg Bool.false_ne_true, if_neg (by omega), if_pos le_rfl]

end Binary64

end Worklist
