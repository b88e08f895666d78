import Mmog.Ruby.Binary64

/-!
# Square roots in binary64

`sqrt` rounds the exact square root.  The root of a rational number is cut off
by the integer square root, and squares decide on which side of the middle the
rest lies, so nothing irrational is needed.
-/

namespace Mmog.Ruby.Binary64

/-- The integer nearest to the square root, the even one of the two when both are equally near. -/
def sqrtHalfEven (q : ℚ) : ℕ :=
  let root := Nat.sqrt ⌊q⌋₊
  if q < ((root : ℚ) + 1 / 2) ^ 2 then root
  else if ((root : ℚ) + 1 / 2) ^ 2 < q then root + 1
  else if root % 2 = 0 then root
  else root + 1

/-- The exponent of the last significand bit of the square root of a positive number. -/
def rootExponent (q : ℚ) : ℤ := Int.log 2 q / 2 - 52

/-- The binary64 number nearest to the square root. -/
def sqrt (q : ℚ) : ℚ :=
  if q ≤ 0 then 0 else sqrtHalfEven (q / 4 ^ rootExponent q) * 2 ^ rootExponent q

theorem sqrt_floor_sq_le {q : ℚ} (hq : 0 ≤ q) : (Nat.sqrt ⌊q⌋₊ : ℚ) ^ 2 ≤ q := by
  have hroot : Nat.sqrt ⌊q⌋₊ ^ 2 ≤ ⌊q⌋₊ := Nat.sqrt_le' _
  calc (Nat.sqrt ⌊q⌋₊ : ℚ) ^ 2 ≤ (⌊q⌋₊ : ℚ) := by exact_mod_cast hroot
    _ ≤ q := Nat.floor_le hq

theorem lt_succ_sqrt_floor_sq (q : ℚ) : q < ((Nat.sqrt ⌊q⌋₊ : ℚ) + 1) ^ 2 := by
  have hroot : ⌊q⌋₊ + 1 ≤ (Nat.sqrt ⌊q⌋₊ + 1) ^ 2 := Nat.lt_succ_sqrt' _
  calc q < (⌊q⌋₊ : ℚ) + 1 := Nat.lt_floor_add_one q
    _ ≤ ((Nat.sqrt ⌊q⌋₊ : ℚ) + 1) ^ 2 := by exact_mod_cast hroot

/-- A number past the middle below `n` has a root that rounds to `n` or more. -/
theorem le_sqrtHalfEven {q : ℚ} {n : ℕ} (hn : 1 ≤ n) (hq : ((n : ℚ) - 1 / 2) ^ 2 < q) :
    n ≤ sqrtHalfEven q := by
  have hcut := lt_succ_sqrt_floor_sq q
  have hone : (1 : ℚ) ≤ n := by exact_mod_cast hn
  set root := Nat.sqrt ⌊q⌋₊ with hroot
  have hle : n ≤ root + 1 := by
    by_contra hlt
    have hfar : ((root : ℚ) + 2) ≤ n := by exact_mod_cast Nat.lt_of_not_le hlt
    nlinarith
  rcases Nat.lt_or_eq_of_le hle with hlt | rfl
  · unfold sqrtHalfEven
    simp only [← hroot]
    split_ifs <;> omega
  · -- the middle is below the number, so the root rounds up
    push_cast at hq
    have hmiddle : ((root : ℚ) + 1 / 2) ^ 2 < q := by
      calc ((root : ℚ) + 1 / 2) ^ 2 = ((root : ℚ) + 1 - 1 / 2) ^ 2 := by ring
        _ < q := hq
    unfold sqrtHalfEven
    simp only [← hroot]
    rw [if_neg hmiddle.not_gt, if_pos hmiddle]

/-- A number short of the middle above `n` has a root that rounds to `n` or less. -/
theorem sqrtHalfEven_le {q : ℚ} {n : ℕ} (hpos : 0 ≤ q) (hq : q < ((n : ℚ) + 1 / 2) ^ 2) :
    sqrtHalfEven q ≤ n := by
  have hcut := sqrt_floor_sq_le hpos
  set root := Nat.sqrt ⌊q⌋₊ with hroot
  have hle : root ≤ n := by
    by_contra hlt
    have hfar : ((n : ℚ) + 1) ≤ root := by exact_mod_cast Nat.lt_of_not_le hlt
    have hzero : (0 : ℚ) ≤ n := Nat.cast_nonneg n
    nlinarith
  rcases Nat.lt_or_eq_of_le hle with hlt | heq
  · unfold sqrtHalfEven
    simp only [← hroot]
    split_ifs <;> omega
  · unfold sqrtHalfEven
    simp only [← hroot]
    rw [if_pos (by rwa [heq])]
    exact heq.le

theorem four_zpow (e : ℤ) : (4 : ℚ) ^ e = (2 ^ e) ^ 2 := by
  rw [← zpow_natCast, ← zpow_mul, mul_comm, zpow_mul]
  norm_num

/-- The scaled radicand lies between two powers of four. -/
theorem scaled_bounds {q : ℚ} (hq : 0 < q) :
    (2 : ℚ) ^ 104 ≤ q / 4 ^ rootExponent q ∧ q / 4 ^ rootExponent q < 2 ^ 106 := by
  have hpow : (0 : ℚ) < 4 ^ rootExponent q := zpow_pos (by norm_num) _
  have hfour : (4 : ℚ) ^ rootExponent q = 2 ^ (2 * rootExponent q) := by
    rw [four_zpow, ← zpow_natCast, ← zpow_mul, mul_comm]
    rfl
  have hlow : (2 : ℚ) ^ Int.log 2 q ≤ q := by
    exact_mod_cast Int.zpow_log_le_self (by norm_num) hq
  have hhigh : q < 2 ^ (Int.log 2 q + 1) := by
    exact_mod_cast Int.lt_zpow_succ_log_self (by norm_num) q
  constructor
  · rw [le_div_iff₀ hpow, hfour, ← zpow_natCast, ← zpow_add₀ two_ne_zero]
    refine le_trans (zpow_le_zpow_right₀ (by norm_num) ?_) hlow
    unfold rootExponent
    push_cast
    omega
  · rw [div_lt_iff₀ hpow, hfour, ← zpow_natCast, ← zpow_add₀ two_ne_zero]
    refine hhigh.trans_le (zpow_le_zpow_right₀ (by norm_num) ?_)
    unfold rootExponent
    push_cast
    omega

theorem sqrtHalfEven_le_pow {q : ℚ} (hq : 0 < q) :
    sqrtHalfEven (q / 4 ^ rootExponent q) ≤ 2 ^ 53 := by
  obtain ⟨hlow, hhigh⟩ := scaled_bounds hq
  refine sqrtHalfEven_le (le_trans (by positivity) hlow) (hhigh.trans ?_)
  norm_num

/-- Square roots are binary64 numbers. -/
@[simp] theorem round_sqrt (q : ℚ) : round (sqrt q) = sqrt q := by
  unfold sqrt
  split
  · exact round_zero
  · rename_i hpos
    have hle := sqrtHalfEven_le_pow (not_le.mp hpos)
    rcases Nat.lt_or_eq_of_le hle with hlt | heq
    · have hsig := round_of_significand (m := sqrtHalfEven (q / 4 ^ rootExponent q)) (rootExponent q)
        (by rw [abs_of_nonneg (Int.natCast_nonneg _)]; exact_mod_cast hlt)
      exact_mod_cast hsig
    · -- the significand has grown by a bit
      have hsig := round_of_significand (m := 2 ^ 52) (rootExponent q + 1) (by norm_num)
      have hgrown : ((2 ^ 53 : ℕ) : ℚ) * 2 ^ rootExponent q =
          ((2 ^ 52 : ℤ) : ℚ) * 2 ^ (rootExponent q + 1) := by
        rw [zpow_add₀ two_ne_zero]
        push_cast
        ring
      rw [heq, hgrown, hsig]

/-- A number past the middle below a multiple of the last bit has a root of that multiple or more. -/
theorem le_sqrt {q : ℚ} {n : ℕ} (hq : 0 < q) (hn : 1 ≤ n)
    (hmiddle : (n * 2 ^ rootExponent q - 2 ^ rootExponent q / 2) ^ 2 < q) :
    n * 2 ^ rootExponent q ≤ sqrt q := by
  have hpow := two_zpow_pos (rootExponent q)
  rw [sqrt, if_neg hq.not_ge]
  refine mul_le_mul_of_nonneg_right ?_ hpow.le
  have hscaled : ((n : ℚ) - 1 / 2) ^ 2 < q / 4 ^ rootExponent q := by
    rw [lt_div_iff₀ (zpow_pos (by norm_num) _), four_zpow]
    calc ((n : ℚ) - 1 / 2) ^ 2 * (2 ^ rootExponent q) ^ 2
        = (n * 2 ^ rootExponent q - 2 ^ rootExponent q / 2) ^ 2 := by ring
      _ < q := hmiddle
  exact_mod_cast le_sqrtHalfEven hn hscaled

/-- A number short of the middle above a multiple of the last bit has a root of that multiple or less. -/
theorem sqrt_le {q : ℚ} {n : ℕ} (hq : 0 < q)
    (hmiddle : q < (n * 2 ^ rootExponent q + 2 ^ rootExponent q / 2) ^ 2) :
    sqrt q ≤ n * 2 ^ rootExponent q := by
  have hpow := two_zpow_pos (rootExponent q)
  have hfour : (0 : ℚ) < 4 ^ rootExponent q := zpow_pos (by norm_num) _
  rw [sqrt, if_neg hq.not_ge]
  refine mul_le_mul_of_nonneg_right ?_ hpow.le
  have hscaled : q / 4 ^ rootExponent q < ((n : ℚ) + 1 / 2) ^ 2 := by
    rw [div_lt_iff₀ hfour, four_zpow]
    calc q < (n * 2 ^ rootExponent q + 2 ^ rootExponent q / 2) ^ 2 := hmiddle
      _ = ((n : ℚ) + 1 / 2) ^ 2 * (2 ^ rootExponent q) ^ 2 := by ring
  exact_mod_cast sqrtHalfEven_le (div_nonneg hq.le hfour.le) hscaled

/-- One half is subtracted from a square root without an error. -/
theorem round_sqrt_sub_half {q : ℚ} (hq : 0 < q) (hlow : -53 ≤ rootExponent q)
    (hhigh : rootExponent q ≤ -1) : round (sqrt q - 1 / 2) = sqrt q - 1 / 2 := by
  have hle := sqrtHalfEven_le_pow hq
  obtain ⟨shift, hshift⟩ : ∃ shift : ℕ, rootExponent q = -(shift : ℤ) - 1 :=
    ⟨(-rootExponent q - 1).toNat, by omega⟩
  have hbits : (2 : ℤ) ^ shift ≤ 2 ^ 52 := pow_le_pow_right₀ (by norm_num) (by omega)
  have hsmall : (1 : ℤ) ≤ 2 ^ shift := one_le_pow₀ (by norm_num)
  have hhalf : (1 / 2 : ℚ) = 2 ^ shift * 2 ^ rootExponent q := by
    rw [hshift, ← zpow_natCast, ← zpow_add₀ two_ne_zero]
    ring_nf
    norm_num
  have hsplit : sqrt q - 1 / 2 =
      ((sqrtHalfEven (q / 4 ^ rootExponent q) - 2 ^ shift : ℤ) : ℚ) * 2 ^ rootExponent q := by
    rw [sqrt, if_neg hq.not_ge]
    nth_rewrite 1 [hhalf]
    push_cast
    ring
  rw [hsplit]
  refine round_of_significand _ (abs_lt.mpr ⟨?_, ?_⟩)
  · have hnonneg : (0 : ℤ) ≤ sqrtHalfEven (q / 4 ^ rootExponent q) := Int.natCast_nonneg _
    linarith
  · have hcast : (sqrtHalfEven (q / 4 ^ rootExponent q) : ℤ) ≤ 2 ^ 53 := by exact_mod_cast hle
    linarith

theorem rootExponent_le {q : ℚ} {k : ℤ} (hq : 0 < q) (hhigh : q < 2 ^ (2 * k + 2)) :
    rootExponent q ≤ k - 52 := by
  have hlog : Int.log 2 q < 2 * k + 2 :=
    (Int.lt_zpow_iff_log_lt (by norm_num) hq).mp (by exact_mod_cast hhigh)
  unfold rootExponent
  omega

theorem le_rootExponent {q : ℚ} {k : ℤ} (hq : 0 < q) (hlow : 2 ^ (2 * k) ≤ q) :
    k - 52 ≤ rootExponent q := by
  have hlog : 2 * k ≤ Int.log 2 q :=
    (Int.zpow_le_iff_le_log (by norm_num) hq).mp (by exact_mod_cast hlow)
  unfold rootExponent
  omega

theorem rootExponent_eq {q : ℚ} {k : ℤ} (hq : 0 < q) (hlow : 2 ^ (2 * k) ≤ q)
    (hhigh : q < 2 ^ (2 * k + 2)) : rootExponent q = k - 52 :=
  le_antisymm (rootExponent_le hq hhigh) (le_rootExponent hq hlow)

/-- When the number is far enough from the squares of the two borders, its root rounds to
between them, and cutting it off gives the lower one. -/
theorem floor_sqrt_sub_half {q : ℚ} {j : ℕ} (hq : 1 / 4 ≤ q) (hhigh : rootExponent q ≤ -1)
    (hbelow : ((j : ℚ) + 1 / 2 - 2 ^ rootExponent q / 2) ^ 2 < q)
    (habove : q < ((j : ℚ) + 3 / 2 - 2 ^ rootExponent q / 2) ^ 2) :
    ⌊round (sqrt q - 1 / 2)⌋ = j := by
  have hpos : (0 : ℚ) < q := lt_of_lt_of_le (by norm_num) hq
  have hpow := two_zpow_pos (rootExponent q)
  have hlow : -1 - 52 ≤ rootExponent q := le_rootExponent hpos (by norm_num; linarith)
  obtain ⟨shift, hshift⟩ : ∃ shift : ℕ, rootExponent q = -(shift : ℤ) - 1 :=
    ⟨(-rootExponent q - 1).toNat, by omega⟩
  have hhalf : (2 : ℚ) ^ shift * 2 ^ rootExponent q = 1 / 2 := by
    rw [hshift, ← zpow_natCast, ← zpow_add₀ two_ne_zero]
    ring_nf
    norm_num
  have hbits : 1 ≤ 2 ^ shift := Nat.one_le_two_pow
  rw [round_sqrt_sub_half hpos hlow hhigh, Int.floor_eq_iff]
  constructor
  · -- the lower border is a multiple of the last bit
    have hborder : (((2 * j + 1) * 2 ^ shift : ℕ) : ℚ) * 2 ^ rootExponent q = j + 1 / 2 := by
      push_cast
      rw [mul_assoc, hhalf]
      ring
    have hroot := le_sqrt (n := (2 * j + 1) * 2 ^ shift) hpos (Nat.mul_pos (by omega) (by omega))
      (by rwa [hborder])
    rw [hborder] at hroot
    push_cast
    linarith
  · -- so is the number one bit short of the upper border
    have hone : 1 ≤ (2 * j + 3) * 2 ^ shift := Nat.mul_pos (by omega) (by omega)
    have hborder : (((2 * j + 3) * 2 ^ shift - 1 : ℕ) : ℚ) * 2 ^ rootExponent q =
        j + 3 / 2 - 2 ^ rootExponent q := by
      rw [Nat.cast_sub hone]
      push_cast
      rw [sub_mul, mul_assoc, hhalf]
      ring
    have hroot := sqrt_le (n := (2 * j + 3) * 2 ^ shift - 1) hpos (by
      rw [hborder]
      calc q < ((j : ℚ) + 3 / 2 - 2 ^ rootExponent q / 2) ^ 2 := habove
        _ = (j + 3 / 2 - 2 ^ rootExponent q + 2 ^ rootExponent q / 2) ^ 2 := by ring)
    rw [hborder] at hroot
    push_cast
    linarith

example : sqrt 2 = 6369051672525773 / 2 ^ 52 := by decide +kernel

end Mmog.Ruby.Binary64
