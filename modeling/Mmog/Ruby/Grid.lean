import Mmog.Ruby.Numeric

/-!
# The grid of binary64

A binary64 number is a multiple of the unit of its last place, so that whole
numbers are subtracted from it without an error, and a third of it that is
rounded to a whole number is exact.
-/

namespace Mmog.Ruby.Binary64

/-- A binary64 number is less than `2 ^ 53` units of its last place, and a multiple of them. -/
theorem exists_units {x : ℚ} (hx : round x = x) (hpos : 0 < x) :
    ∃ m : ℤ, 0 ≤ m ∧ m < 2 ^ 53 ∧ x = m * 2 ^ exponent x := by
  have hpow := two_zpow_pos (exponent x)
  have hunits : x = roundHalfEven (x / 2 ^ exponent x) * 2 ^ exponent x := by
    rw [round_of_nonneg hpos.le] at hx
    exact hx.symm
  have hhigh : x < 2 ^ (53 : ℤ) * 2 ^ exponent x := by
    rw [← zpow_add₀ two_ne_zero, exponent, show 53 + (Int.log 2 x - 52) = Int.log 2 x + 1 by ring]
    exact_mod_cast Int.lt_zpow_succ_log_self (by norm_num) x
  refine ⟨roundHalfEven (x / 2 ^ exponent x), ?_, ?_, hunits⟩
  · exact (Int.floor_nonneg.mpr (div_nonneg hpos.le hpow.le)).trans (floor_le_roundHalfEven _)
  · nth_rewrite 1 [hunits] at hhigh
    exact_mod_cast lt_of_mul_lt_mul_right hhigh hpow.le

/-- Below `2 ^ 53` the unit of the last place divides one. -/
theorem exponent_nonpos {x : ℚ} (hpos : 0 < x) (hbound : x < 2 ^ 53) : exponent x ≤ 0 := by
  have hlog : Int.log 2 x < 53 := (Int.lt_zpow_iff_log_lt (by norm_num) hpos).mp (by exact_mod_cast hbound)
  unfold exponent
  omega

/-- Whole numbers are multiples of the units that divide one. -/
theorem intCast_eq_units (n : ℤ) {e : ℤ} (he : e ≤ 0) : ∃ m : ℤ, (n : ℚ) = m * 2 ^ e := by
  obtain ⟨shift, hshift⟩ := Int.eq_ofNat_of_zero_le (show 0 ≤ -e by omega)
  refine ⟨n * 2 ^ shift, ?_⟩
  have hone : (2 : ℚ) ^ shift * 2 ^ e = 1 := by
    rw [← zpow_natCast, ← zpow_add₀ two_ne_zero, ← hshift, neg_add_cancel, zpow_zero]
  push_cast
  rw [mul_assoc, hone, mul_one]

/-- A whole number is subtracted from a binary64 number without an error. -/
theorem round_sub_intCast {x : ℚ} (hx : round x = x) (hbound : x < 2 ^ 53) {n : ℤ} (hn : 0 ≤ n) (hle : n ≤ x) :
    round (x - n) = x - n := by
  rcases (show (0 : ℚ) ≤ x from (Int.cast_nonneg hn).trans hle).eq_or_lt with rfl | hpos
  · have hzero : (n : ℚ) = 0 := le_antisymm hle (Int.cast_nonneg hn)
    rw [hzero, sub_zero, round_zero]
  obtain ⟨m, -, hm, hunits⟩ := exists_units hx hpos
  obtain ⟨k, hk⟩ := intCast_eq_units n (exponent_nonpos hpos hbound)
  have hpow := two_zpow_pos (exponent x)
  have hdiff : x - n = ((m - k : ℤ) : ℚ) * 2 ^ exponent x := by
    rw [Int.cast_sub, sub_mul, ← hunits, ← hk]
  have hk0 : 0 ≤ k := by
    have hnonneg : (0 : ℚ) ≤ k * 2 ^ exponent x := by rw [← hk]; exact Int.cast_nonneg hn
    exact_mod_cast nonneg_of_mul_nonneg_left hnonneg hpow
  have hkm : k ≤ m := by
    have hunder : (k : ℚ) * 2 ^ exponent x ≤ m * 2 ^ exponent x := by
      rw [← hk, ← hunits]
      exact hle
    exact_mod_cast le_of_mul_le_mul_right hunder hpow
  rw [hdiff]
  exact round_of_significand _ (by rw [abs_of_nonneg] <;> omega)

/-- A third that is rounded to a whole number is whole. -/
theorem eq_of_round_third {x : ℚ} (hx : round x = x) (hpos : 0 ≤ x) (hbound : x < 2 ^ 53) {k : ℤ}
    (hk : round (x / 3) = k) : x = 3 * k := by
  rcases hpos.eq_or_lt with rfl | hpos
  · rw [zero_div, round_zero] at hk
    rw [← hk, mul_zero]
  obtain ⟨m, -, -, hunits⟩ := exists_units hx hpos
  obtain ⟨j, hj⟩ := intCast_eq_units (3 * k) (exponent_nonpos hpos hbound)
  have hpow := two_zpow_pos (exponent x)
  -- a third has a smaller unit of the last place, which is less than a third of an error of one unit
  have hthird : x / 3 < 2 ^ (exponent x - 1 + 53) := by
    have hhigh : x < 2 ^ (exponent x + 53) := by
      rw [exponent, show Int.log 2 x - 52 + 53 = Int.log 2 x + 1 by ring]
      exact_mod_cast Int.lt_zpow_succ_log_self (by norm_num) x
    rw [show exponent x - 1 + 53 = exponent x + 53 - 1 by ring, zpow_sub_one₀ two_ne_zero]
    linarith
  have herror := abs_round_sub_le_half (div_pos hpos three_pos) hthird
  rw [hk, zpow_sub_one₀ two_ne_zero] at herror
  have hclose : |((j - m : ℤ) : ℚ) * 2 ^ exponent x| < 1 * 2 ^ exponent x := by
    have hdiff : ((j - m : ℤ) : ℚ) * 2 ^ exponent x = 3 * (k - x / 3) := by
      push_cast at hj ⊢
      rw [sub_mul, ← hj, ← hunits]
      ring
    rw [hdiff, abs_mul, abs_of_pos three_pos]
    linarith
  rw [abs_mul, abs_of_pos hpow] at hclose
  have hzero : |j - m| < 1 := by exact_mod_cast lt_of_mul_lt_mul_right hclose hpow.le
  have heq : j = m := sub_eq_zero.mp (Int.abs_lt_one_iff.mp hzero)
  rw [hunits, ← heq, ← hj]
  push_cast
  ring

/-- A whole number that is not above a rounded third is not above the third. -/
theorem three_mul_le_of_le_round_third {x : ℚ} (hx : round x = x) (hpos : 0 ≤ x) (hbound : x < 2 ^ 53) {n : ℤ}
    (hn : n ≤ round (x / 3)) : 3 * (n : ℚ) ≤ x := by
  by_contra hlt
  have hover : x / 3 ≤ n := by linarith
  have hsmall : |n| < 2 ^ 53 := by
    have hnonneg : (0 : ℚ) ≤ n := (div_nonneg hpos zero_le_three).trans hover
    have hle : round (x / 3) ≤ round x := round_mono (div_le_self hpos (by norm_num))
    have hlt : (n : ℚ) < 2 ^ 53 := (hn.trans (hle.trans_eq hx)).trans_lt hbound
    rw [abs_of_nonneg (by exact_mod_cast hnonneg)]
    exact_mod_cast hlt
  have hround : round (x / 3) ≤ n := (round_mono hover).trans_eq (round_intCast hsmall)
  have hthird := eq_of_round_third hx hpos hbound (le_antisymm hround hn)
  exact hlt hthird.ge

/-! ## Fractions that rounding does not reach -/

/-- A fraction that is farther from the whole numbers than the error of rounding keeps its floor. -/
theorem floor_round_of_far {y gap : ℚ} (hy : 0 ≤ y) (hbound : y < gap * 2 ^ 53) (hlow : ⌊y⌋ + gap ≤ y)
    (hhigh : y + gap ≤ ⌊y⌋ + 1) : ⌊round y⌋ = ⌊y⌋ := by
  have herror := abs_round_sub_le_mul hy
  have hless : y / 2 ^ 53 < gap := (div_lt_iff₀ (by positivity)).mpr hbound
  rw [abs_le] at herror
  exact Int.floor_eq_iff.mpr ⟨by linarith, by linarith⟩

/-- A fraction with a small denominator is either rounded to a whole number or stays far from all of them. -/
theorem far_of_fraction {j n : ℤ} (hn : 0 < n) (hj : 0 ≤ j) (hbound : (j : ℚ) / n < 1 / (2 * n) * 2 ^ 53)
    (hnot : ¬∃ k : ℤ, round (j / n) = k) :
    ⌊round (j / n)⌋ + 1 / (2 * n) ≤ round ((j : ℚ) / n) ∧ round ((j : ℚ) / n) + 1 / (2 * n) ≤ ⌊round (j / n)⌋ + 1 := by
  have hn' : (0 : ℚ) < n := Int.cast_pos.mpr hn
  have hj' : (0 : ℚ) ≤ j / n := div_nonneg (Int.cast_nonneg hj) hn'.le
  have hsplit : (j : ℚ) = n * (j / n : ℤ) + (j % n : ℤ) := by exact_mod_cast (Int.mul_ediv_add_emod j n).symm
  have hquot : (j : ℚ) / n = (j / n : ℤ) + (j % n : ℤ) / n := by
    rw [div_eq_iff hn'.ne', add_mul, div_mul_cancel₀ _ hn'.ne', mul_comm]
    exact hsplit
  have hrest : 1 ≤ j % n := by
    have hnonneg := Int.emod_nonneg j hn.ne'
    have hne : j % n ≠ 0 := by
      intro hzero
      rw [hzero, Int.cast_zero, zero_div, add_zero] at hquot
      obtain ⟨k, hk⟩ := exists_round_intCast (j / n)
      exact hnot ⟨k, by rw [hquot, hk]⟩
    omega
  have hless := Int.emod_lt_of_pos j hn
  have hlow : 1 / (n : ℚ) ≤ (j % n : ℤ) / n := div_le_div_of_nonneg_right (by exact_mod_cast hrest) hn'.le
  have hhigh : ((j % n : ℤ) : ℚ) / n + 1 / n ≤ 1 := by
    rw [← add_div, div_le_one hn']
    exact_mod_cast hless
  have hhalf : 1 / (n : ℚ) = 1 / (2 * n) + 1 / (2 * n) := by field_simp; norm_num
  have herror := abs_round_sub_le_mul hj'
  have hgap : (j : ℚ) / n / 2 ^ 53 < 1 / (2 * n) := (div_lt_iff₀ (by positivity)).mpr hbound
  rw [abs_le] at herror
  have hpos : (0 : ℚ) < 1 / (2 * n) := by positivity
  have hfloor : ⌊round ((j : ℚ) / n)⌋ = j / n := Int.floor_eq_iff.mpr ⟨by linarith, by linarith⟩
  rw [hfloor]
  constructor <;> linarith

end Mmog.Ruby.Binary64
