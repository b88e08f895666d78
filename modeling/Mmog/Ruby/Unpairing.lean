import Mmog.Ruby.Floating
import Mmog.Ruby.Pairing

/-!
# The diagonal of a pair

The diagonal of the pair number `i` is `⌊√(1/4 + 2i) - 1/2⌋`.  With exact square
roots this always holds.  In binary64 it holds for coordinates below
`2 ^ 27 - 1`: the number under the root is rounded, but what is lost is less
than what the rounding of the root takes away again.
-/

namespace Mmog.Ruby

/-- The diagonal as a program computes it. -/
def diagonal (R : Type) [Add R] [Sub R] [Floating R] (i : ℤ) : ℤ :=
  Floating.floor (Floating.sqrt (Floating.lit (1 / 4) + Floating.ofInt (2 * i)) - Floating.lit (1 / 2) : R)

variable {x y : ℤ}

theorem diagonal_real (hx : 0 ≤ x) (hy : 0 ≤ y) : diagonal ℝ (pairing x y) = x + y := by
  have htwo : (2 * pairing x y : ℝ) = (x + y) * (x + y + 1) + 2 * y := by
    exact_mod_cast two_mul_pairing x y
  have hx' : (0 : ℝ) ≤ x := by exact_mod_cast hx
  have hy' : (0 : ℝ) ≤ y := by exact_mod_cast hy
  unfold diagonal
  rw [Floating.floor_real, Int.floor_eq_iff, Floating.sqrt_real, Floating.lit_real, Floating.lit_real,
    Floating.ofInt_real]
  push_cast
  constructor
  · have hroot : (x + y + 1 / 2 : ℝ) ≤ √(1 / 4 + 2 * pairing x y) :=
      Real.le_sqrt_of_sq_le (by rw [htwo]; linarith [sq (x + y + 1 / 2 : ℝ)])
    linarith
  · have hroot : √(1 / 4 + 2 * pairing x y : ℝ) < x + y + 3 / 2 := by
      rw [Real.sqrt_lt' (by linarith), htwo]
      linarith [sq (x + y + 3 / 2 : ℝ)]
    linarith

/-! ## Binary64 -/

/-- The number under the root in binary64. -/
def radicand (i : ℤ) : ℚ := Binary64.round (1 / 4 + Binary64.round ((2 * i : ℤ) : ℚ))

theorem diagonal_double (i : ℤ) :
    diagonal Double i = ⌊Binary64.round (Binary64.sqrt (radicand i) - 1 / 2)⌋ := by
  have hquarter : Binary64.round (1 / 4) = 1 / 4 := by
    have hsig := Binary64.round_of_significand (m := 1) (-2) (by norm_num)
    norm_num at hsig ⊢
    exact hsig
  have hhalf : Binary64.round (1 / 2) = 1 / 2 := by
    have hsig := Binary64.round_of_significand (m := 1) (-1) (by norm_num)
    norm_num at hsig ⊢
    exact hsig
  unfold diagonal radicand
  rw [Double.floor_eq, Double.value_sub, Double.value_sqrt, Double.value_add, Double.value_lit,
    Double.value_lit, Double.value_ofInt, hquarter, hhalf]

theorem radicand_of_lt {i : ℤ} (hi : 0 ≤ i) (hlt : 2 * i < 2 ^ 51) : radicand i = 1 / 4 + 2 * i := by
  have hexact : Binary64.round ((2 * i : ℤ) : ℚ) = ((2 * i : ℤ) : ℚ) :=
    Binary64.round_intCast (by rw [abs_of_nonneg (by omega)]; omega)
  have hsig := Binary64.round_of_significand (m := 8 * i + 1) (-2)
    (by rw [abs_of_nonneg (by omega)]; omega)
  have hvalue : ((8 * i + 1 : ℤ) : ℚ) * 2 ^ (-2 : ℤ) = 1 / 4 + ((2 * i : ℤ) : ℚ) := by
    push_cast
    norm_num
    ring
  rw [hvalue] at hsig
  rw [radicand, hexact, hsig]
  push_cast
  rfl

/-- From `2 ^ 51` on the quarter is lost. -/
theorem radicand_of_le {i : ℤ} (hle : 2 ^ 51 ≤ 2 * i) :
    radicand i = Binary64.round ((2 * i : ℤ) : ℚ) := by
  obtain ⟨m, hm⟩ := Binary64.exists_round_intCast (2 * i)
  have hbig : (2 : ℤ) ^ 51 ≤ m := by
    have hmono := Binary64.round_mono (x := ((2 ^ 51 : ℤ) : ℚ)) (y := ((2 * i : ℤ) : ℚ))
      (by exact_mod_cast hle)
    rw [Binary64.round_intCast (by norm_num), hm] at hmono
    exact_mod_cast hmono
  rw [radicand, hm, Binary64.round_quarter_add hbig]
  rw [← hm, Binary64.round_round]

/-- Up to `2 ^ 54` even numbers are kept. -/
theorem round_two_mul {i : ℤ} (hi : 0 ≤ i) (hlt : 2 * i < 2 ^ 54) :
    Binary64.round ((2 * i : ℤ) : ℚ) = ((2 * i : ℤ) : ℚ) := by
  have hsig := Binary64.round_of_significand (m := i) 1 (by rw [abs_of_nonneg hi]; omega)
  have hvalue : ((i : ℤ) : ℚ) * 2 ^ (1 : ℤ) = ((2 * i : ℤ) : ℚ) := by
    push_cast
    ring
  rwa [hvalue] at hsig

theorem le_radicand {i : ℤ} (hle : 2 ^ 54 ≤ 2 * i) : 2 ^ 54 ≤ radicand i := by
  have hmono := Binary64.round_mono (x := 2 ^ 54) (y := ((2 * i : ℤ) : ℚ)) (by exact_mod_cast hle)
  have hpow : Binary64.round (2 ^ 54) = 2 ^ 54 := by
    have hsig := Binary64.round_of_significand (m := 1) 54 (by norm_num)
    norm_num at hsig ⊢
    exact hsig
  rwa [hpow, ← radicand_of_le (le_trans (by norm_num) hle)] at hmono

theorem abs_radicand_sub_le {i k : ℤ} (hle : 2 ^ 54 ≤ 2 * i) (hlt : (2 * i : ℚ) < 2 ^ (k + 53)) :
    |radicand i - 2 * i| ≤ 2 ^ k / 2 := by
  have hvalue : ((2 * i : ℤ) : ℚ) = 2 * i := by push_cast; rfl
  have hpos : (0 : ℚ) < 2 * i := by
    exact_mod_cast (show 0 < 2 * i from lt_of_lt_of_le (by norm_num) hle)
  rw [radicand_of_le (le_trans (by norm_num) hle), hvalue]
  exact Binary64.abs_round_sub_le_half hpos hlt

/-- The diagonal is right when the radicand is far enough from the borders of the diagonal. -/
theorem diagonal_of_radicand {q : ℚ} (hq : radicand (pairing x y) = q) (hx : 0 ≤ x) (hy : 0 ≤ y)
    (hquarter : 1 / 4 ≤ q) (hexponent : Binary64.rootExponent q ≤ -1)
    (hbelow : (x + y + 1 / 2 - 2 ^ Binary64.rootExponent q / 2 : ℚ) ^ 2 < q)
    (habove : q < (x + y + 3 / 2 - 2 ^ Binary64.rootExponent q / 2 : ℚ) ^ 2) :
    diagonal Double (pairing x y) = x + y := by
  obtain ⟨j, hj⟩ := Int.eq_ofNat_of_zero_le (show 0 ≤ x + y by omega)
  have hcast : (j : ℚ) = x + y := by exact_mod_cast hj.symm
  rw [diagonal_double, hq, hj]
  apply Binary64.floor_sqrt_sub_half hquarter hexponent
  · rwa [hcast]
  · rwa [hcast]

section Double

variable (hx : 0 ≤ x) (hy : 0 ≤ y)

theorem two_mul_pairing_cast (x y : ℤ) :
    (2 * pairing x y : ℚ) = (x + y) * (x + y + 1) + 2 * y := by
  exact_mod_cast two_mul_pairing x y

include hx hy

/-- The quarter is kept. -/
theorem diagonal_of_lt (hlt : 2 * pairing x y < 2 ^ 51) :
    diagonal Double (pairing x y) = x + y := by
  have hx' : (0 : ℚ) ≤ x := by exact_mod_cast hx
  have hy' : (0 : ℚ) ≤ y := by exact_mod_cast hy
  have htwo := two_mul_pairing_cast x y
  have hlt' : (2 * pairing x y : ℚ) < 2 ^ 51 := by exact_mod_cast hlt
  have hdiagonal : (x + y : ℚ) < 2 ^ 26 := by nlinarith
  have hpos : (0 : ℚ) ≤ 2 * pairing x y := by
    exact_mod_cast Int.mul_nonneg (by norm_num) (pairing_nonneg hx hy)
  have hexponent : Binary64.rootExponent (1 / 4 + 2 * pairing x y) ≤ -27 :=
    Binary64.rootExponent_le (k := 25) (by linarith) (by norm_num; linarith)
  have hunit : (2 : ℚ) ^ Binary64.rootExponent (1 / 4 + 2 * pairing x y) ≤ 2 ^ (-27 : ℤ) :=
    zpow_le_zpow_right₀ (by norm_num) hexponent
  have hunit_pos := Binary64.two_zpow_pos (Binary64.rootExponent (1 / 4 + 2 * pairing x y))
  refine diagonal_of_radicand (radicand_of_lt (pairing_nonneg hx hy) hlt) hx hy (by linarith) (by omega) ?_ ?_
  · set unit := (2 : ℚ) ^ Binary64.rootExponent (1 / 4 + 2 * pairing x y)
    norm_num at hunit
    nlinarith
  · set unit := (2 : ℚ) ^ Binary64.rootExponent (1 / 4 + 2 * pairing x y)
    norm_num at hunit
    nlinarith

/-- The quarter is lost, everything else is kept. -/
theorem diagonal_of_lt_of_le (hle : 2 ^ 51 ≤ 2 * pairing x y) (hlt : 2 * pairing x y < 2 ^ 54) :
    diagonal Double (pairing x y) = x + y := by
  have hx' : (0 : ℚ) ≤ x := by exact_mod_cast hx
  have hy' : (0 : ℚ) ≤ y := by exact_mod_cast hy
  have htwo := two_mul_pairing_cast x y
  have hle' : (2 ^ 51 : ℚ) ≤ 2 * pairing x y := by exact_mod_cast hle
  have hlt' : (2 * pairing x y : ℚ) < 2 ^ 54 := by exact_mod_cast hlt
  have hhigh : (x + y : ℚ) < 2 ^ 27 := by nlinarith
  have hradicand : radicand (pairing x y) = 2 * pairing x y := by
    rw [radicand_of_le hle, round_two_mul (pairing_nonneg hx hy) hlt]
    push_cast
    rfl
  have hpos : (0 : ℚ) < 2 * pairing x y := lt_of_lt_of_le (by norm_num) hle'
  rcases lt_or_ge (2 * pairing x y : ℚ) (2 ^ 52) with hsmall | hbig
  · have hlow : (5 * 2 ^ 23 : ℚ) ≤ x + y := by
      by_contra hless
      nlinarith
    have hexponent : Binary64.rootExponent (2 * pairing x y) = -27 :=
      Binary64.rootExponent_eq (k := 25) hpos (by norm_num; linarith) (by norm_num; linarith)
    refine diagonal_of_radicand hradicand hx hy (by linarith) (by omega) ?_ ?_
    · rw [hexponent]
      norm_num
      nlinarith
    · rw [hexponent]
      norm_num
      nlinarith
  · have hlow : (2 ^ 25 : ℚ) ≤ x + y := by
      by_contra hless
      nlinarith
    have hexponent : Binary64.rootExponent (2 * pairing x y) = -26 :=
      Binary64.rootExponent_eq (k := 26) hpos (by norm_num; linarith) (by norm_num; linarith)
    refine diagonal_of_radicand hradicand hx hy (by linarith) (by omega) ?_ ?_
    · rw [hexponent]
      norm_num
      nlinarith
    · rw [hexponent]
      norm_num
      nlinarith

/-- The diagonal is right when the radicand is near enough to the number it stands for. -/
theorem diagonal_of_near {error : ℚ} (hnear : |radicand (pairing x y) - 2 * pairing x y| ≤ error)
    (hlow : 2 ^ 54 ≤ radicand (pairing x y)) (hhigh : radicand (pairing x y) < 2 ^ 56)
    (hbelow : error + 1 / 2 ≤ (x + y + 1 / 2 : ℚ) / 2 ^ 25)
    (habove : (x + y + 3 / 2 : ℚ) / 2 ^ 25 + error ≤ 2 * (x + 1) + 1 / 4) :
    diagonal Double (pairing x y) = x + y := by
  have hy' : (0 : ℚ) ≤ y := by exact_mod_cast hy
  have htwo := two_mul_pairing_cast x y
  obtain ⟨hless, hmore⟩ := abs_le.mp hnear
  have hexponent : Binary64.rootExponent (radicand (pairing x y)) = -25 :=
    Binary64.rootExponent_eq (k := 27) (by linarith) (by norm_num; linarith) (by norm_num; linarith)
  refine diagonal_of_radicand rfl hx hy (by linarith) (by omega) ?_ ?_
  · rw [hexponent]
    norm_num at hbelow ⊢
    nlinarith
  · rw [hexponent]
    norm_num at habove ⊢
    nlinarith

/-- On these diagonals an even number is rounded by at most two. -/
theorem diagonal_of_ge_of_lt (hx' : x < 2 ^ 27 - 1) (hy' : y < 2 ^ 27 - 1)
    (hle : 2 ^ 54 ≤ 2 * pairing x y) (hlt : 2 * pairing x y < 2 ^ 55) :
    diagonal Double (pairing x y) = x + y := by
  have htwo := two_mul_pairing x y
  have hlow := le_radicand hle
  have hlt' : (2 * pairing x y : ℚ) < 2 ^ 55 := by exact_mod_cast hlt
  have hfar : 2 ^ 27 - 1 ≤ x + y := by
    by_contra hless
    nlinarith
  have hfar' : (2 ^ 27 - 1 : ℚ) ≤ x + y := by exact_mod_cast hfar
  by_cases hedge : x + y = 2 ^ 27 - 1 ∧ x = 1
  · -- the number of this pair is a multiple of four
    obtain ⟨hsum, rfl⟩ := hedge
    obtain rfl : y = 2 ^ 27 - 2 := by omega
    have hexact : radicand (pairing 1 (2 ^ 27 - 2)) = 2 * pairing 1 (2 ^ 27 - 2) := by
      decide +kernel
    have hnear : |radicand (pairing 1 (2 ^ 27 - 2)) - 2 * pairing 1 (2 ^ 27 - 2)| ≤ 0 := by
      rw [hexact, sub_self, abs_zero]
    refine diagonal_of_near hx hy hnear hlow ?_ ?_ ?_
    · rw [hexact]
      norm_num [pairing]
    · norm_num
    · norm_num
  · have hnear : |radicand (pairing x y) - 2 * pairing x y| ≤ 2 := by
      have herror := abs_radicand_sub_le (k := 2) hle (by norm_num; linarith)
      norm_num at herror ⊢
      exact herror
    refine diagonal_of_near hx hy hnear hlow ?_ ?_ ?_
    · linarith [(abs_le.mp hnear).2]
    · norm_num at hfar' ⊢
      linarith
    · rcases eq_or_lt_of_le hfar with heq | hmore
      · have hsum : (x + y : ℚ) = 2 ^ 27 - 1 := by exact_mod_cast heq.symm
        have hxtwo : (2 : ℚ) ≤ x := by exact_mod_cast (show 2 ≤ x by omega)
        norm_num at hsum ⊢
        linarith
      · have hsum : (2 ^ 27 : ℚ) ≤ x + y := by exact_mod_cast (show 2 ^ 27 ≤ x + y by omega)
        have hxfar : (x + y - (2 ^ 27 - 2) : ℚ) ≤ x := by
          exact_mod_cast (show x + y - (2 ^ 27 - 2) ≤ x by omega)
        norm_num at hsum hxfar ⊢
        linarith

/-- On these diagonals an even number is rounded by at most four, and the pair is far from the end. -/
theorem diagonal_of_ge (hx' : x < 2 ^ 27 - 1) (hy' : y < 2 ^ 27 - 1) (hle : 2 ^ 55 ≤ 2 * pairing x y) :
    diagonal Double (pairing x y) = x + y := by
  have htwo := two_mul_pairing x y
  have hle' : (2 : ℤ) ^ 54 ≤ 2 * pairing x y := le_trans (by norm_num) hle
  have hend : 2 * pairing x y < 2 ^ 56 - 8 := by nlinarith
  have hend' : (2 * pairing x y : ℚ) < 2 ^ 56 - 8 := by exact_mod_cast hend
  have hfar : 5 * 2 ^ 25 ≤ x + y := by
    by_contra hless
    nlinarith
  have hfar' : (5 * 2 ^ 25 : ℚ) ≤ x + y := by exact_mod_cast hfar
  have hxfar : (x + y - (2 ^ 27 - 2) : ℚ) ≤ x := by
    exact_mod_cast (show x + y - (2 ^ 27 - 2) ≤ x by omega)
  have hnear : |radicand (pairing x y) - 2 * pairing x y| ≤ 4 := by
    have herror := abs_radicand_sub_le (k := 3) hle' (by norm_num at hend' ⊢; linarith)
    norm_num at herror ⊢
    exact herror
  refine diagonal_of_near hx hy hnear (le_radicand hle') ?_ ?_ ?_
  · linarith [(abs_le.mp hnear).2]
  · norm_num at hfar' ⊢
    linarith
  · norm_num at hfar' hxfar ⊢
    linarith

/-- Below `2 ^ 27 - 1` the diagonal read in binary64 is right. -/
theorem diagonal_double_eq (hx' : x < 2 ^ 27 - 1) (hy' : y < 2 ^ 27 - 1) :
    diagonal Double (pairing x y) = x + y := by
  rcases lt_or_ge (2 * pairing x y) (2 ^ 51) with hquarter | hquarter
  · exact diagonal_of_lt hx hy hquarter
  rcases lt_or_ge (2 * pairing x y) (2 ^ 54) with heven | heven
  · exact diagonal_of_lt_of_le hx hy hquarter heven
  rcases lt_or_ge (2 * pairing x y) (2 ^ 55) with htwo | hfour
  · exact diagonal_of_ge_of_lt hx hy hx' hy' heven htwo
  · exact diagonal_of_ge hx hy hx' hy' hfour

end Double

/-- The end of the diagonal `2 ^ 27 - 1` is read as a pair of the next diagonal. -/
theorem diagonal_double_edge : diagonal Double (pairing 0 (2 ^ 27 - 1)) = 2 ^ 27 := by
  decide +kernel

end Mmog.Ruby
