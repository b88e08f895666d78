import Mathlib.Algebra.Order.Floor.Ring
import Mathlib.Algebra.Order.Round
import Mathlib.Data.Int.Log
import Mathlib.Data.Rat.Floor
import Mathlib.Tactic.Linarith
import Mathlib.Tactic.Ring
import Mathlib.Tactic.FieldSimp
import Mathlib.Tactic.Positivity
import Mathlib.Tactic.NormNum

/-!
# Rounding to binary64

A `Float` operation computes the exact result and rounds it to the nearest
number with a 53 bit significand, ties going to the even significand.  Values
are kept as rationals.  The exponent range is not bounded, so overflow and
subnormal numbers do not occur; division by zero is the caller's business.
-/

namespace Mmog.Ruby.Binary64

/-- The nearest integer, the even one of the two when both are equally near. -/
def roundHalfEven (q : ℚ) : ℤ :=
  if q - ⌊q⌋ < 1 / 2 then ⌊q⌋
  else if 1 / 2 < q - ⌊q⌋ then ⌊q⌋ + 1
  else if ⌊q⌋ % 2 = 0 then ⌊q⌋
  else ⌊q⌋ + 1

theorem floor_le_roundHalfEven (q : ℚ) : ⌊q⌋ ≤ roundHalfEven q := by
  unfold roundHalfEven
  split_ifs <;> omega

theorem roundHalfEven_le_floor_add_one (q : ℚ) : roundHalfEven q ≤ ⌊q⌋ + 1 := by
  unfold roundHalfEven
  split_ifs <;> omega

@[simp] theorem roundHalfEven_intCast (n : ℤ) : roundHalfEven n = n := by
  simp [roundHalfEven]

theorem roundHalfEven_mono {x y : ℚ} (hxy : x ≤ y) :
    roundHalfEven x ≤ roundHalfEven y := by
  rcases lt_or_eq_of_le (Int.floor_mono hxy) with hlt | heq
  · calc roundHalfEven x ≤ ⌊x⌋ + 1 := roundHalfEven_le_floor_add_one x
      _ ≤ ⌊y⌋ := hlt
      _ ≤ roundHalfEven y := floor_le_roundHalfEven y
  · -- inside one unit interval only the fractional parts decide
    unfold roundHalfEven
    rw [heq]
    split_ifs <;> first | omega | linarith

/-- The exponent of the last significand bit of a positive number. -/
def exponent (q : ℚ) : ℤ := Int.log 2 q - 52

/-- Rounding of a number that is not negative. -/
def roundPos (q : ℚ) : ℚ := roundHalfEven (q / 2 ^ exponent q) * 2 ^ exponent q

/-- The binary64 number nearest to `q`. -/
def round (q : ℚ) : ℚ := if q < 0 then -roundPos (-q) else roundPos q

theorem two_zpow_pos (e : ℤ) : (0 : ℚ) < 2 ^ e := zpow_pos two_pos e

@[simp] theorem roundPos_zero : roundPos 0 = 0 := by
  simp [roundPos, roundHalfEven]

@[simp] theorem round_zero : round 0 = 0 := by
  simp [round]

theorem round_of_nonneg {q : ℚ} (hq : 0 ≤ q) : round q = roundPos q :=
  if_neg hq.not_gt

theorem round_neg (q : ℚ) : round (-q) = -round q := by
  rcases lt_trichotomy q 0 with hq | rfl | hq
  · rw [round_of_nonneg (by linarith), round, if_pos hq, neg_neg]
  · simp
  · rw [round_of_nonneg hq.le, round, if_pos (by linarith), neg_neg]

theorem roundPos_nonneg {q : ℚ} (hq : 0 ≤ q) : 0 ≤ roundPos q := by
  have hpow := two_zpow_pos (exponent q)
  have hsig : (0 : ℤ) ≤ roundHalfEven (q / 2 ^ exponent q) :=
    (Int.floor_nonneg.mpr (div_nonneg hq hpow.le)).trans (floor_le_roundHalfEven _)
  exact mul_nonneg (by exact_mod_cast hsig) hpow.le

theorem round_nonneg {q : ℚ} (hq : 0 ≤ q) : 0 ≤ round q := by
  rw [round_of_nonneg hq]
  exact roundPos_nonneg hq

/-- A positive number rounds up to no more than the next power of two. -/
theorem roundPos_le_pow (q : ℚ) : roundPos q ≤ 2 ^ (exponent q + 53) := by
  have hpow := two_zpow_pos (exponent q)
  have hlog : q < 2 ^ (Int.log 2 q + 1) := by
    exact_mod_cast Int.lt_zpow_succ_log_self (by norm_num) q
  have hquot : q / 2 ^ exponent q ≤ ((2 ^ 53 : ℤ) : ℚ) := by
    rw [div_le_iff₀ hpow]
    refine hlog.le.trans (le_of_eq ?_)
    rw [show Int.log 2 q + 1 = 53 + exponent q by unfold exponent; ring, zpow_add₀ two_ne_zero]
    norm_num
  have hsig : roundHalfEven (q / 2 ^ exponent q) ≤ 2 ^ 53 := by
    simpa only [roundHalfEven_intCast] using roundHalfEven_mono hquot
  calc roundPos q ≤ (2 ^ 53 : ℚ) * 2 ^ exponent q :=
        mul_le_mul_of_nonneg_right (by exact_mod_cast hsig) hpow.le
    _ = 2 ^ (exponent q + 53) := by
        rw [zpow_add₀ two_ne_zero, mul_comm]
        norm_num

/-- A positive number rounds down to no less than its leading power of two. -/
theorem pow_le_roundPos {q : ℚ} (hq : 0 < q) : 2 ^ (exponent q + 52) ≤ roundPos q := by
  have hpow := two_zpow_pos (exponent q)
  have hlog : (2 : ℚ) ^ Int.log 2 q ≤ q := by
    exact_mod_cast Int.zpow_log_le_self (by norm_num) hq
  have hquot : ((2 ^ 52 : ℤ) : ℚ) ≤ q / 2 ^ exponent q := by
    rw [le_div_iff₀ hpow]
    refine le_trans (le_of_eq ?_) hlog
    rw [show Int.log 2 q = 52 + exponent q by unfold exponent; ring, zpow_add₀ two_ne_zero]
    norm_num
  have hsig : (2 ^ 52 : ℤ) ≤ roundHalfEven (q / 2 ^ exponent q) := by
    simpa only [roundHalfEven_intCast] using roundHalfEven_mono hquot
  calc (2 : ℚ) ^ (exponent q + 52) = (2 ^ 52 : ℚ) * 2 ^ exponent q := by
        rw [zpow_add₀ two_ne_zero, mul_comm]
        norm_num
    _ ≤ roundPos q := mul_le_mul_of_nonneg_right (by exact_mod_cast hsig) hpow.le

theorem roundPos_mono {x y : ℚ} (hx : 0 < x) (hxy : x ≤ y) : roundPos x ≤ roundPos y := by
  have hexp : exponent x ≤ exponent y :=
    Int.sub_le_sub_right (Int.log_mono_right hx hxy) 52
  rcases lt_or_eq_of_le hexp with hlt | heq
  · -- a power of two separates the results
    calc roundPos x ≤ 2 ^ (exponent x + 53) := roundPos_le_pow x
      _ ≤ 2 ^ (exponent y + 52) := zpow_le_zpow_right₀ (by norm_num) (by omega)
      _ ≤ roundPos y := pow_le_roundPos (hx.trans_le hxy)
  · have hpow := two_zpow_pos (exponent y)
    unfold roundPos
    rw [heq]
    refine mul_le_mul_of_nonneg_right ?_ hpow.le
    exact_mod_cast roundHalfEven_mono (div_le_div_of_nonneg_right hxy hpow.le)

/-- Rounding is monotone. -/
theorem round_mono {x y : ℚ} (hxy : x ≤ y) : round x ≤ round y := by
  rcases lt_trichotomy x 0 with hx | rfl | hx
  · rcases lt_or_ge y 0 with hy | hy
    · rw [round, round, if_pos hx, if_pos hy]
      exact neg_le_neg (roundPos_mono (by linarith) (by linarith))
    · have hleft : round x ≤ 0 := by
        rw [round, if_pos hx]
        exact neg_nonpos.mpr (roundPos_nonneg (by linarith))
      exact hleft.trans (round_nonneg hy)
  · simpa using round_nonneg hxy
  · rw [round_of_nonneg hx.le, round_of_nonneg (hx.le.trans hxy)]
    exact roundPos_mono hx hxy

/-- A number whose significand has at most 53 bits is not changed by rounding. -/
theorem round_of_significand {m : ℤ} (e : ℤ) (hm : |m| < 2 ^ 53) :
    round (m * 2 ^ e) = m * 2 ^ e := by
  have hpos : ∀ {k : ℤ}, 0 < k → k < 2 ^ 53 → round (k * 2 ^ e) = k * 2 ^ e := by
    intro k hk hlt
    have hq : (0 : ℚ) < k * 2 ^ e := mul_pos (by exact_mod_cast hk) (two_zpow_pos e)
    have hlog : Int.log 2 ((k : ℚ) * 2 ^ e) < 53 + e := by
      refine (Int.lt_zpow_iff_log_lt (by norm_num) hq).mp ?_
      have hcast : (k : ℚ) < 2 ^ (53 : ℤ) := by exact_mod_cast hlt
      simpa [zpow_add₀] using mul_lt_mul_of_pos_right hcast (two_zpow_pos e)
    obtain ⟨shift, hshift⟩ : ∃ shift : ℕ, e = exponent ((k : ℚ) * 2 ^ e) + shift :=
      ⟨(e - exponent ((k : ℚ) * 2 ^ e)).toNat, by unfold exponent; omega⟩
    have hpow := (two_zpow_pos (exponent ((k : ℚ) * 2 ^ e))).ne'
    have hquot : (k : ℚ) * 2 ^ e / 2 ^ exponent ((k : ℚ) * 2 ^ e) = ((k * 2 ^ shift : ℤ) : ℚ) := by
      rw [div_eq_iff hpow]
      nth_rewrite 1 [hshift]
      rw [zpow_add₀ two_ne_zero]
      push_cast
      rw [zpow_natCast]
      ring
    rw [round_of_nonneg hq.le, roundPos, hquot, roundHalfEven_intCast, ← hquot,
      div_mul_cancel₀ _ hpow]
  rcases lt_trichotomy m 0 with hneg | rfl | hm'
  · have hflip := hpos (k := -m) (by omega) (by rw [abs_of_neg hneg] at hm; exact hm)
    rw [Int.cast_neg, neg_mul, round_neg] at hflip
    exact neg_injective hflip
  · simp
  · exact hpos hm' (by rwa [abs_of_pos hm'] at hm)

/-- Integers below `2 ^ 53` are binary64 numbers. -/
theorem round_intCast {n : ℤ} (hn : |n| < 2 ^ 53) : round n = n := by
  simpa using round_of_significand 0 hn

/-- Rounding an integer gives an integer: it drops digits to the left of the point only. -/
theorem exists_round_intCast (n : ℤ) : ∃ m : ℤ, round n = m := by
  have hpos : ∀ {n : ℤ}, 0 < n → ∃ m : ℤ, round n = m := by
    intro n hn
    rcases lt_or_ge n (2 ^ 53) with hlt | hge
    · exact ⟨n, round_intCast (by rwa [abs_of_pos hn])⟩
    · have hlog : 53 ≤ Int.log 2 (n : ℚ) := by
        refine (Int.zpow_le_iff_le_log (by norm_num) (by exact_mod_cast hn)).mp ?_
        exact_mod_cast hge
      obtain ⟨shift, hshift⟩ : ∃ shift : ℕ, exponent (n : ℚ) = shift :=
        ⟨(exponent (n : ℚ)).toNat, by unfold exponent; omega⟩
      refine ⟨roundHalfEven ((n : ℚ) / 2 ^ exponent (n : ℚ)) * 2 ^ shift, ?_⟩
      rw [round_of_nonneg (by exact_mod_cast hn.le), roundPos, hshift]
      push_cast
      rw [zpow_natCast]
  rcases lt_trichotomy n 0 with hneg | rfl | hn
  · obtain ⟨m, hm⟩ := hpos (show 0 < -n by omega)
    rw [Int.cast_neg, round_neg] at hm
    exact ⟨-m, by rw [Int.cast_neg, ← hm, neg_neg]⟩
  · exact ⟨0, by simp⟩
  · exact hpos hn

/-- Rounding positive numbers gives binary64 numbers. -/
theorem exists_significand {q : ℚ} (hq : 0 < q) :
    ∃ (m e : ℤ), |m| < 2 ^ 53 ∧ round q = m * 2 ^ e := by
  have hpow := two_zpow_pos (exponent q)
  have hle : roundHalfEven (q / 2 ^ exponent q) ≤ 2 ^ 53 := by
    have hround := roundPos_le_pow q
    rw [roundPos, add_comm, zpow_add₀ two_ne_zero] at hround
    exact_mod_cast le_of_mul_le_mul_right hround hpow
  have hnonneg : 0 ≤ roundHalfEven (q / 2 ^ exponent q) :=
    (Int.floor_nonneg.mpr (div_nonneg hq.le hpow.le)).trans (floor_le_roundHalfEven _)
  rw [round_of_nonneg hq.le, roundPos]
  rcases lt_or_eq_of_le hle with hlt | heq
  · exact ⟨_, _, by rwa [abs_of_nonneg hnonneg], rfl⟩
  · -- the significand has grown by a bit
    refine ⟨2 ^ 52, exponent q + 1, by norm_num, ?_⟩
    rw [heq, zpow_add₀ two_ne_zero]
    push_cast
    ring

@[simp] theorem round_round (q : ℚ) : round (round q) = round q := by
  have hpos : ∀ {p : ℚ}, 0 < p → round (round p) = round p := by
    intro p hp
    obtain ⟨m, e, hm, hround⟩ := exists_significand hp
    rw [hround, round_of_significand e hm]
  rcases lt_trichotomy q 0 with hq | rfl | hq
  · have hflip := hpos (p := -q) (by linarith)
    rwa [round_neg, round_neg, neg_inj] at hflip
  · simp
  · exact hpos hq

theorem abs_roundHalfEven_sub_le (q : ℚ) : |(roundHalfEven q : ℚ) - q| ≤ 1 / 2 := by
  have hlow := Int.floor_le q
  have hhigh := Int.lt_floor_add_one q
  unfold roundHalfEven
  rw [abs_le]
  split_ifs <;> push_cast <;> constructor <;> linarith

/-- The error of rounding is at most half a unit of the last place. -/
theorem abs_round_sub_le_half {q : ℚ} {k : ℤ} (hq : 0 < q) (hhigh : q < 2 ^ (k + 53)) :
    |round q - q| ≤ 2 ^ k / 2 := by
  have hpow := two_zpow_pos (exponent q)
  have hlog : Int.log 2 q < k + 53 :=
    (Int.lt_zpow_iff_log_lt (by norm_num) hq).mp (by exact_mod_cast hhigh)
  have herror : round q - q =
      (roundHalfEven (q / 2 ^ exponent q) - q / 2 ^ exponent q) * 2 ^ exponent q := by
    rw [round_of_nonneg hq.le, roundPos, sub_mul, div_mul_cancel₀ _ hpow.ne']
  calc |round q - q|
      = |(roundHalfEven (q / 2 ^ exponent q) : ℚ) - q / 2 ^ exponent q| * 2 ^ exponent q := by
        rw [herror, abs_mul, abs_of_pos hpow]
    _ ≤ 1 / 2 * 2 ^ exponent q :=
        mul_le_mul_of_nonneg_right (abs_roundHalfEven_sub_le _) hpow.le
    _ ≤ 1 / 2 * 2 ^ k := by
        refine mul_le_mul_of_nonneg_left (zpow_le_zpow_right₀ (by norm_num) ?_) (by norm_num)
        unfold exponent
        omega
    _ = 2 ^ k / 2 := by ring

/-- The relative error of rounding. -/
theorem abs_round_sub_le_mul {q : ℚ} (hq : 0 ≤ q) : |round q - q| ≤ q / 2 ^ 53 := by
  rcases hq.eq_or_lt with rfl | hpos
  · simp
  · have hhigh : q < 2 ^ (Int.log 2 q - 52 + 53) := by
      rw [show Int.log 2 q - 52 + 53 = Int.log 2 q + 1 by ring]
      exact_mod_cast Int.lt_zpow_succ_log_self (by norm_num) q
    have hlow : (2 : ℚ) ^ Int.log 2 q ≤ q := by
      exact_mod_cast Int.zpow_log_le_self (by norm_num) hpos
    calc |round q - q| ≤ 2 ^ (Int.log 2 q - 52) / 2 := abs_round_sub_le_half hpos hhigh
      _ = 2 ^ Int.log 2 q / 2 ^ 53 := by
          rw [zpow_sub₀ two_ne_zero]
          norm_num
          ring
      _ ≤ q / 2 ^ 53 := div_le_div_of_nonneg_right hlow (by norm_num)

theorem round_le_mul {q : ℚ} (hq : 0 ≤ q) : round q ≤ q * (1 + 1 / 2 ^ 53) := by
  have herror := (abs_le.mp (abs_round_sub_le_mul hq)).2
  linarith

theorem mul_le_round {q : ℚ} (hq : 0 ≤ q) : q * (1 - 1 / 2 ^ 53) ≤ round q := by
  have herror := (abs_le.mp (abs_round_sub_le_mul hq)).1
  linarith

theorem round_pos {q : ℚ} (hq : 0 < q) : 0 < round q :=
  (mul_pos hq (by norm_num)).trans_le (mul_le_round hq.le)

/-- A rest of less than one half is cut off, and so is one half behind an even number. -/
theorem roundHalfEven_add {n : ℤ} {rest : ℚ} (hpos : 0 ≤ rest)
    (hrest : rest < 1 / 2 ∨ rest = 1 / 2 ∧ n % 2 = 0) : roundHalfEven (n + rest) = n := by
  have hlt : rest < 1 := by
    rcases hrest with h | ⟨h, -⟩ <;> linarith
  have hfloor : ⌊(n : ℚ) + rest⌋ = n := by
    rw [Int.floor_intCast_add, Int.floor_eq_zero_iff.mpr ⟨hpos, hlt⟩, add_zero]
  unfold roundHalfEven
  rw [hfloor, add_sub_cancel_left]
  rcases hrest with hless | ⟨heq, heven⟩
  · rw [if_pos hless]
  · rw [if_neg (by rw [heq]; exact lt_irrefl _), if_neg (by rw [heq]; exact lt_irrefl _), if_pos heven]

/-- From `2 ^ 51` on one quarter is lost when it is added to an integer. -/
theorem round_quarter_add {n : ℤ} (hlow : 2 ^ 51 ≤ n) (hn : round n = n) : round (1 / 4 + n) = n := by
  have hcast : (2 : ℚ) ^ 51 ≤ n := by exact_mod_cast hlow
  have hpos : (0 : ℚ) < n := lt_of_lt_of_le (by positivity) hcast
  have hlog : Int.log 2 (1 / 4 + (n : ℚ)) = Int.log 2 (n : ℚ) := by
    refine le_antisymm ?_ (Int.log_mono_right hpos (by linarith))
    have hfifty : 0 ≤ Int.log 2 (n : ℚ) + 1 :=
      le_trans (by norm_num) (Int.add_le_add_right
        ((Int.zpow_le_iff_le_log (x := 51) (by norm_num) hpos).mp (by exact_mod_cast hlow)) 1)
    obtain ⟨top, htop⟩ := Int.eq_ofNat_of_zero_le hfifty
    have hbound : (n : ℚ) < 2 ^ (Int.log 2 (n : ℚ) + 1) := by
      exact_mod_cast Int.lt_zpow_succ_log_self (by norm_num) (n : ℚ)
    have hnext : n + 1 ≤ 2 ^ top := by
      rw [htop] at hbound
      exact_mod_cast hbound
    have hnext' : (n : ℚ) + 1 ≤ 2 ^ (Int.log 2 (n : ℚ) + 1) := by
      rw [htop, zpow_natCast]
      exact_mod_cast hnext
    have hlt : Int.log 2 (1 / 4 + (n : ℚ)) < Int.log 2 (n : ℚ) + 1 :=
      (Int.lt_zpow_iff_log_lt (by norm_num) (by linarith)).mp (by push_cast; linarith)
    omega
  have hexp : exponent (1 / 4 + (n : ℚ)) = exponent (n : ℚ) := by rw [exponent, hlog, exponent]
  have hexponent : -1 ≤ exponent (n : ℚ) := by
    have hfifty : 51 ≤ Int.log 2 (n : ℚ) :=
      (Int.zpow_le_iff_le_log (by norm_num) hpos).mp (by exact_mod_cast hlow)
    unfold exponent
    omega
  have hpow := two_zpow_pos (exponent (n : ℚ))
  -- the significand of the integer is an integer
  have hsig : (n : ℚ) / 2 ^ exponent (n : ℚ) = roundHalfEven ((n : ℚ) / 2 ^ exponent (n : ℚ)) := by
    rw [div_eq_iff hpow.ne']
    nth_rewrite 1 [← hn]
    rw [round_of_nonneg hpos.le, roundPos]
  rw [round_of_nonneg (by linarith), roundPos, hexp, add_comm (1 / 4 : ℚ), add_div, hsig,
    roundHalfEven_add (by positivity), ← hsig, div_mul_cancel₀ _ hpow.ne']
  rcases eq_or_lt_of_le hexponent with heq | hlt
  · -- the lost quarter is half a unit, and the significand `2 * n` is even
    refine Or.inr ⟨by rw [← heq]; norm_num, ?_⟩
    have htwice : ((n : ℚ) / 2 ^ exponent (n : ℚ)) = ((2 * n : ℤ) : ℚ) := by
      rw [← heq]
      push_cast
      norm_num
      ring
    rw [htwice, roundHalfEven_intCast]
    exact Int.mul_emod_right 2 n
  · refine Or.inl ?_
    rw [div_lt_iff₀ hpow]
    have hone : (1 : ℚ) ≤ 2 ^ exponent (n : ℚ) := one_le_zpow₀ (by norm_num) (by omega)
    linarith

example : round (round (1 / 49) * 49) < 1 := by decide +kernel

end Mmog.Ruby.Binary64
