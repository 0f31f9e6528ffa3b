import Mathlib.Algebra.Order.Ring.Int
import Mathlib.Tactic.Linarith
import Worklist.Binary64.Integral
import Worklist.Proofs.Binary64.Exact

/-!
# Integers against numbers, exactly

`compareInt?` decides between an integer and a number by the range of the integers, by the integral
part of the number, and at last by what was cut off.  Here each of these is what it should be.

* `scaled_trunc` and `toInt_toInt64_trunc`: the integral part is the quotient towards zero, and its
  conversion loses nothing.
* `zero_lt_sub_iff`, `sub_lt_zero_iff`: a difference may be rounded, but not to another sign.
* `compareInt?_eq`: so the answer is the order of the integer and the number as multiples of
  `2 ^ -1074`.
-/

namespace Worklist.Binary64

variable {x y : Binary64}

/-! ## Comparisons -/

theorem lt_iff (hx : x.isNaN = false) (hy : y.isNaN = false) :
    x.lt y = true ↔ x.scaled < y.scaled := by
  rw [lt, compare?, hx, hy, Bool.or_false, if_neg Bool.false_ne_true, beq_iff_eq, Option.some_inj,
    compare_lt_iff_lt]

theorem le_iff (hx : x.isNaN = false) (hy : y.isNaN = false) :
    x.le y = true ↔ x.scaled ≤ y.scaled := by
  rw [le, Bool.or_eq_true, lt_iff hx hy, compare?, hx, hy, Bool.or_false,
    if_neg Bool.false_ne_true, beq_iff_eq, Option.some_inj, compare_eq_iff_eq, le_iff_lt_or_eq]

/-! ## Integral parts -/

/-- Words that agree above the fraction have the same sign and the same exponent. -/
theorem sign_and_exponent_congr (h : y.word / twoPow 52 = x.word / twoPow 52) :
    y.isNegative = x.isNegative ∧ y.exponentField = x.exponentField := by
  refine ⟨decide_eq_decide.2 ?_, by rw [exponentField, h, exponentField]⟩
  rw [show twoPow 63 = twoPow 11 * twoPow 52 from rfl,
    ← Nat.le_div_iff_mul_le (twoPow_pos 52), ← Nat.le_div_iff_mul_le (twoPow_pos 52), h]

/-- From one on, cutting off clears bits of the fraction and nothing else. -/
theorem trunc_fields (h : 1023 ≤ x.exponentField) :
    x.trunc.isNegative = x.isNegative ∧ x.trunc.exponentField = x.exponentField ∧
      x.trunc.fraction = x.fraction - x.fraction % twoPow (1075 - x.exponentField) := by
  obtain ⟨k, hk⟩ : ∃ k, 1075 - x.exponentField = k := ⟨_, rfl⟩
  have hcleared : x.word % twoPow k = x.fraction % twoPow k :=
    (Nat.mod_mod_of_dvd _ (twoPow_dvd_twoPow (by omega))).symm
  have hword : x.trunc.word =
      x.fraction - x.fraction % twoPow k + twoPow 52 * (x.word / twoPow 52) := by
    have hparts : x.fraction + twoPow 52 * (x.word / twoPow 52) = x.word := Nat.mod_add_div ..
    have hle : x.fraction % twoPow k ≤ x.fraction := Nat.mod_le ..
    have hlt : x.word - x.word % twoPow k < 2 ^ 64 :=
      (Nat.sub_le ..).trans_lt x.bits.toNat_lt
    rw [trunc, if_neg (by omega), hk, word, UInt64.toNat_ofNat_of_lt' hlt, hcleared]
    omega
  have hfraction : x.fraction - x.fraction % twoPow k < twoPow 52 :=
    (Nat.sub_le ..).trans_lt x.fraction_lt
  have hdiv : x.trunc.word / twoPow 52 = x.word / twoPow 52 := by
    rw [hword, Nat.add_mul_div_left _ _ (twoPow_pos 52), Nat.div_eq_of_lt hfraction, Nat.zero_add]
  obtain ⟨hsign, hexponent⟩ := sign_and_exponent_congr hdiv
  refine ⟨hsign, hexponent, ?_⟩
  rw [hk, fraction, hword, Nat.add_mul_mod_self_left, Nat.mod_eq_of_lt hfraction]

/-- Below one only the sign is left. -/
theorem trunc_of_lt (h : x.exponentField < 1023) :
    x.trunc.isNegative = x.isNegative ∧ x.trunc.isNaN = false ∧ x.trunc.magnitude = 0 := by
  rw [trunc, if_pos h]
  cases x.isNegative <;> decide

theorem isNaN_trunc (h : x.isNaN = false) : x.trunc.isNaN = false := by
  by_cases hexponent : x.exponentField < 1023
  · exact (trunc_of_lt hexponent).2.1
  · obtain ⟨-, hsame, hfraction⟩ := trunc_fields (Nat.le_of_not_lt hexponent)
    rw [isNaN, hsame, hfraction]
    by_cases hlast : x.exponentField = 2047
    · have hzero : x.fraction = 0 := by simpa [isNaN, hlast] using h
      simp [hzero]
    · simp [hlast]

/-- The magnitude of the integral part is the largest multiple of one below. -/
theorem magnitude_trunc (x : Binary64) :
    x.trunc.magnitude = x.magnitude / twoPow 1074 * twoPow 1074 := by
  by_cases hone : x.exponentField < 1023
  · have hlt : x.magnitude < twoPow (53 + 1021) := magnitude_lt (by rw [unit]; omega)
    rw [(trunc_of_lt hone).2.2, Nat.div_eq_of_lt hlt, Nat.zero_mul]
  · obtain ⟨-, hsame, hfraction⟩ := trunc_fields (Nat.le_of_not_lt hone)
    have hzero : x.exponentField ≠ 0 := by omega
    rw [magnitude, magnitude, significand, significand, unit, unit, hsame, hfraction,
      if_neg hzero, if_neg hzero]
    by_cases hplaces : 1075 ≤ x.exponentField
    · -- no bit of the fraction stands behind the point
      rw [Nat.sub_eq_zero_of_le hplaces, show twoPow 0 = 1 from rfl, Nat.mod_one, Nat.sub_zero,
        Nat.div_mul_cancel ((twoPow_dvd_twoPow (by omega)).mul_left _)]
    · obtain ⟨k, hk⟩ : ∃ k, 1075 - x.exponentField = k := ⟨_, rfl⟩
      have hsplit : twoPow 1074 = twoPow k * twoPow (x.exponentField - 1) := by
        rw [← twoPow_add, ← hk]
        congr 1
        omega
      have hmod : (twoPow 52 + x.fraction) % twoPow k = x.fraction % twoPow k := by
        obtain ⟨c, hc⟩ := twoPow_dvd_twoPow (m := k) (n := 52) (by omega)
        rw [hc, Nat.mul_add_mod]
      have hle : x.fraction % twoPow k ≤ x.fraction := Nat.mod_le ..
      rw [hsplit, Nat.mul_div_mul_right _ _ (twoPow_pos _), ← Nat.mul_assoc,
        Nat.div_mul_self_eq_mod_sub_self, hmod, hk, Nat.add_sub_assoc hle]

theorem isNegative_trunc (x : Binary64) : x.trunc.isNegative = x.isNegative := by
  by_cases hone : x.exponentField < 1023
  · exact (trunc_of_lt hone).1
  · exact (trunc_fields (Nat.le_of_not_lt hone)).1

/-- The integral part is the quotient towards zero. -/
theorem scaled_trunc (x : Binary64) :
    x.trunc.scaled = x.scaled.tdiv (twoPow 1074) * twoPow 1074 := by
  rw [scaled, scaled, isNegative_trunc, magnitude_trunc]
  cases x.isNegative with
  | true => rw [if_pos rfl, if_pos rfl, Int.neg_tdiv, Int.neg_mul, Int.natCast_mul, Int.ofNat_tdiv]
  | false =>
    rw [if_neg Bool.false_ne_true, if_neg Bool.false_ne_true, Int.natCast_mul, Int.ofNat_tdiv]

/-! ## Quotients towards zero -/

section Quotient

variable {m n s : ℤ}

theorem mul_lt_of_lt_tdiv (hs : 0 < s) (h : n < m.tdiv s) : n * s < m := by
  have hparts := Int.tmod_add_mul_tdiv m s
  have hrest := Int.lt_tmod_of_pos m hs
  have hle : (n + 1) * s ≤ m.tdiv s * s := Int.mul_le_mul_of_nonneg_right h hs.le
  linarith

theorem lt_mul_of_tdiv_lt (hs : 0 < s) (h : m.tdiv s < n) : m < n * s := by
  have hparts := Int.tmod_add_mul_tdiv m s
  have hrest := Int.tmod_lt_of_pos m hs
  have hle : (m.tdiv s + 1) * s ≤ n * s := Int.mul_le_mul_of_nonneg_right h hs.le
  linarith

/-- The quotient is in the range of the integers when the dividend is in the range of their
multiples. -/
theorem tdiv_bounds (hs : 0 < s) (hn : 0 < n) (hlow : -n * s ≤ m) (hhigh : m < n * s) :
    -n ≤ m.tdiv s ∧ m.tdiv s < n := by
  constructor
  · by_contra hlt
    exact hlow.not_gt (lt_mul_of_tdiv_lt hs (lt_of_not_ge hlt))
  · rcases lt_or_ge m 0 with hneg | hnonneg
    · have hle : m.tdiv s ≤ 0 := by
        by_contra hlt
        have hpos := mul_lt_of_lt_tdiv hs (lt_of_not_ge hlt)
        rw [Int.zero_mul] at hpos
        exact hneg.not_gt hpos
      exact hle.trans_lt hn
    · rw [Int.tdiv_eq_ediv_of_nonneg hnonneg]
      exact Int.ediv_lt_of_lt_mul hs hhigh

end Quotient

theorem unit_pos : (0 : ℤ) < twoPow 1074 := Int.natCast_pos.2 (twoPow_pos _)

/-- Within the range of the integers, the integral part is converted without loss. -/
theorem toInt_toInt64_trunc (h : x.isNaN = false) (hlow : -2 ^ 63 * (twoPow 1074 : ℤ) ≤ x.scaled)
    (hhigh : x.scaled < 2 ^ 63 * (twoPow 1074 : ℤ)) :
    x.trunc.toInt64.toInt = x.scaled.tdiv (twoPow 1074) := by
  obtain ⟨hle, hlt⟩ := tdiv_bounds unit_pos (by decide) hlow hhigh
  have hclamped : max Int64.minValue.toInt
      (min Int64.maxValue.toInt (x.scaled.tdiv (twoPow 1074))) = x.scaled.tdiv (twoPow 1074) := by
    rw [Int64.toInt_minValue, Int64.toInt_maxValue]
    omega
  rw [toInt64, isNaN_trunc h, if_neg Bool.false_ne_true, scaled_trunc,
    Int.mul_tdiv_cancel _ unit_pos.ne', hclamped, Int64.toInt_ofInt_of_le hle hlt]

/-! ## What is cut off -/

/-- A word up to the one of the infinity is a number that is not negative, and none but the first
is zero. -/
theorem class_of_word_le (h : x.word ≤ 2047 * twoPow 52) :
    x.isNegative = false ∧ x.isNaN = false ∧ (0 < x.word → 0 < x.magnitude) := by
  have hpow : twoPow 52 = 4503599627370496 := rfl
  rw [hpow] at h
  refine ⟨decide_eq_false ?_, ?_, fun hpos => ?_⟩
  · rw [show twoPow 63 = 9223372036854775808 from rfl]
    omega
  · rw [isNaN, Bool.and_eq_false_iff, beq_eq_false_iff_ne, bne_eq_false_iff_eq, exponentField,
      fraction, hpow, show twoPow 11 = 2048 from rfl]
    omega
  · refine Nat.mul_pos ?_ (twoPow_pos _)
    rw [significand, exponentField, fraction, hpow, show twoPow 11 = 2048 from rfl]
    split <;> omega

theorem word_withMinus (h : x.word < twoPow 63) : x.withMinus.word = twoPow 63 + x.word := by
  have hor := Nat.two_pow_add_eq_or_of_lt h 1
  rw [Nat.mul_one] at hor
  rw [word, withMinus, UInt64.toNat_or, Nat.or_comm]
  exact hor.symm

/-- The sign bit changes the sign alone. -/
theorem withMinus_fields (h : x.word < twoPow 63) :
    x.withMinus.isNegative = true ∧ x.withMinus.isNaN = x.isNaN ∧
      x.withMinus.magnitude = x.magnitude := by
  have hexponent : x.withMinus.exponentField = x.exponentField := by
    rw [exponentField, exponentField, word_withMinus h,
      show twoPow 63 = twoPow 52 * twoPow 11 from rfl, Nat.mul_add_div (twoPow_pos _),
      Nat.add_mod_left]
  have hfraction : x.withMinus.fraction = x.fraction := by
    rw [fraction, fraction, word_withMinus h, show twoPow 63 = twoPow 52 * twoPow 11 from rfl,
      Nat.mul_add_mod]
  refine ⟨decide_eq_true ?_, by rw [isNaN, isNaN, hexponent, hfraction],
    by rw [magnitude, magnitude, significand, significand, unit, unit, hexponent, hfraction]⟩
  rw [word_withMinus h]
  exact Nat.le_add_right ..

theorem div_le_roundHalfEven (num den : Nat) : num / den ≤ roundHalfEven num den := by
  rw [roundHalfEven]
  split
  · exact Nat.le_refl _
  · split <;> omega

/-- Nothing positive is rounded to zero or beyond the infinity. -/
theorem word_nearest {m : Nat} (h : 0 < m) :
    0 < (nearest m 1).word ∧ (nearest m 1).word ≤ 2047 * twoPow 52 := by
  have hlog : twoPow (unitFor (m / 1)) ≤ m := by
    rw [Nat.div_one, unitFor]
    exact (twoPow_le_twoPow (Nat.sub_le ..)).trans (Nat.log2_self_le h.ne')
  have hrounded : 0 < roundHalfEven m (1 * twoPow (unitFor (m / 1))) := by
    rw [Nat.one_mul]
    exact (Nat.div_pos hlog (twoPow_pos _)).trans_le (div_le_roundHalfEven ..)
  have hword : (nearest m 1).word = min (unitFor (m / 1) * twoPow 52 +
      roundHalfEven m (1 * twoPow (unitFor (m / 1)))) (2047 * twoPow 52) :=
    UInt64.toNat_ofNat_of_lt' ((Nat.min_le_right ..).trans_lt (by decide))
  rw [hword]
  exact ⟨Nat.lt_min.2 ⟨Nat.add_pos_right _ hrounded, by decide⟩, Nat.min_le_right ..⟩

/-- A rounded difference is positive exactly if the difference is, and so for negative ones. -/
theorem ofScaled_spec (m : ℤ) :
    (ofScaled m).isNaN = false ∧ compare (ofScaled m).scaled 0 = compare m 0 := by
  rcases lt_trichotomy m 0 with hneg | rfl | hpos
  · obtain ⟨hword, hle⟩ := word_nearest (Int.natAbs_pos.2 hneg.ne)
    obtain ⟨-, hnan, hmagnitude⟩ := class_of_word_le hle
    obtain ⟨hminus, hsame, hvalue⟩ :=
      withMinus_fields (hle.trans_lt (by decide : 2047 * twoPow 52 < twoPow 63))
    rw [ofScaled, if_pos hneg, scaled, hminus, if_pos rfl, hsame, hvalue,
      compare_lt_iff_lt.2 hneg, compare_lt_iff_lt]
    have := hmagnitude hword
    exact ⟨hnan, by omega⟩
  · decide +kernel
  · obtain ⟨hword, hle⟩ := word_nearest (Int.natAbs_pos.2 hpos.ne')
    obtain ⟨hsign, hnan, hmagnitude⟩ := class_of_word_le hle
    rw [ofScaled, if_neg hpos.not_gt, scaled, hsign, if_neg Bool.false_ne_true,
      compare_gt_iff_gt.2 hpos, compare_gt_iff_gt]
    have := hmagnitude hword
    exact ⟨hnan, by omega⟩

theorem zero_lt_sub_iff : zero.lt (x.sub y) = true ↔ y.scaled < x.scaled := by
  obtain ⟨hnan, hsign⟩ := ofScaled_spec (x.scaled - y.scaled)
  rw [sub, lt_iff (by decide) hnan, show zero.scaled = 0 from rfl, ← compare_gt_iff_gt, hsign,
    compare_gt_iff_gt, Int.sub_pos]

theorem sub_lt_zero_iff : (x.sub y).lt zero = true ↔ x.scaled < y.scaled := by
  obtain ⟨hnan, hsign⟩ := ofScaled_spec (x.scaled - y.scaled)
  rw [sub, lt_iff hnan (by decide), show zero.scaled = 0 from rfl, ← compare_lt_iff_lt, hsign,
    compare_lt_iff_lt, sub_neg]

/-! ## The order -/

theorem scaled_int64Bound : int64Bound.scaled = 2 ^ 63 * twoPow 1074 := by decide +kernel

theorem scaled_int64Bound_withMinus :
    int64Bound.withMinus.scaled = -2 ^ 63 * twoPow 1074 := by decide +kernel

/-- An integer and a number are ordered as multiples of `2 ^ -1074`. -/
theorem compareInt?_eq (n : Int64) (h : x.isNaN = false) :
    compareInt? n x = some (compare (n.toInt * twoPow 1074) x.scaled) := by
  have hlt := Int.mul_lt_mul_of_pos_right n.toInt_lt unit_pos
  have hge := Int.mul_le_mul_of_nonneg_right n.le_toInt unit_pos.le
  rw [compareInt?, h, if_neg Bool.false_ne_true]
  split
  next hhigh =>
    rw [le_iff (by decide) h, scaled_int64Bound] at hhigh
    rw [compare_lt_iff_lt.2 (hlt.trans_le hhigh)]
  next hhigh =>
    rw [le_iff (by decide) h, scaled_int64Bound, not_le] at hhigh
    split
    next hlow =>
      rw [lt_iff h (by decide), scaled_int64Bound_withMinus] at hlow
      rw [compare_gt_iff_gt.2 (hlow.trans_le hge)]
    next hlow =>
      rw [lt_iff h (by decide), scaled_int64Bound_withMinus, not_lt] at hlow
      simp only [toInt_toInt64_trunc h hlow hhigh]
      rcases lt_trichotomy n.toInt (x.scaled.tdiv (twoPow 1074)) with hwhole | hwhole | hwhole
      · rw [compare_lt_iff_lt.2 hwhole, compare_lt_iff_lt.2 (mul_lt_of_lt_tdiv unit_pos hwhole)]
      · -- the difference to the integral part decides
        have htrunc : x.trunc.scaled = n.toInt * twoPow 1074 := by rw [scaled_trunc, hwhole]
        simp only [compare_eq_iff_eq.2 hwhole, zero_lt_sub_iff, sub_lt_zero_iff, htrunc]
        rcases lt_trichotomy (n.toInt * twoPow 1074) x.scaled with hlt | heq | hgt
        · rw [if_pos hlt, compare_lt_iff_lt.2 hlt]
        · rw [heq, if_neg (lt_irrefl _), if_neg (lt_irrefl _), compare_eq_iff_eq.2 rfl]
        · rw [if_neg hgt.not_gt, if_pos hgt, compare_gt_iff_gt.2 hgt]
      · rw [compare_gt_iff_gt.2 hwhole, compare_gt_iff_gt.2 (lt_mul_of_tdiv_lt unit_pos hwhole)]

end Worklist.Binary64
