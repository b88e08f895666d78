import Mathlib.Analysis.Complex.Norm
import Mathlib.Tactic.Linarith
import Mathlib.Tactic.Ring

/-!
# Distances

Distances on a torus, and distances in layers: things that are apart in the
lower layer are reached through a common centre, so their positions in the
upper layer are added; things that are not apart differ by their positions.
-/

namespace Mmog.Ruby

structure IsDistance {α : Type*} (d : α → α → ℝ) : Prop where
  self : ∀ p, d p p = 0
  symm : ∀ p q, d p q = d q p
  triangle : ∀ p q r, d p r ≤ d p q + d q r

namespace IsDistance

variable {α : Type*} {d : α → α → ℝ} (hd : IsDistance d)

include hd

theorem nonneg (p q : α) : 0 ≤ d p q := by
  have htriangle := hd.triangle p q p
  rw [hd.self, hd.symm q p] at htriangle
  linarith

/-- What is not apart has the same distance from everything. -/
theorem eq_of_eq_zero {p q : α} (hzero : d p q = 0) (r : α) : d p r = d q r := by
  have hthere := hd.triangle p q r
  have hback := hd.triangle q p r
  rw [hd.symm q p] at hback
  linarith

theorem comp {β : Type*} (f : β → α) : IsDistance fun p q => d (f p) (f q) where
  self p := hd.self (f p)
  symm p q := hd.symm (f p) (f q)
  triangle p q r := hd.triangle (f p) (f q) (f r)

theorem mul_const {factor : ℝ} (hfactor : 0 ≤ factor) : IsDistance fun p q => d p q * factor where
  self p := by rw [hd.self, zero_mul]
  symm p q := by rw [hd.symm]
  triangle p q r := by
    rw [← add_mul]
    exact mul_le_mul_of_nonneg_right (hd.triangle p q r) hfactor

end IsDistance

/-! ## Layers -/

section Layered

variable {α : Type*} (d : α → α → ℝ) (position : α → ℝ)

open Classical in
noncomputable def layered (p q : α) : ℝ :=
  d p q + if d p q = 0 then |position p - position q| else position p + position q

variable {d position}

theorem layered_of_eq_zero {p q : α} (hzero : d p q = 0) :
    layered d position p q = |position p - position q| := by
  rw [layered, if_pos hzero, hzero, zero_add]

theorem layered_of_ne_zero {p q : α} (hapart : d p q ≠ 0) :
    layered d position p q = d p q + (position p + position q) := by
  rw [layered, if_neg hapart]

theorem IsDistance.layered (hd : IsDistance d) (hposition : ∀ p, 0 ≤ position p) :
    IsDistance (layered d position) where
  self p := by rw [layered_of_eq_zero (hd.self p), sub_self, abs_zero]
  symm p q := by
    by_cases hzero : d p q = 0
    · rw [layered_of_eq_zero hzero, layered_of_eq_zero (hd.symm p q ▸ hzero), abs_sub_comm]
    · rw [layered_of_ne_zero hzero, layered_of_ne_zero (hd.symm p q ▸ hzero), hd.symm, add_comm (position p)]
  triangle p q r := by
    have hp := hposition p
    have hq := hposition q
    have hr := hposition r
    by_cases hpq : d p q = 0
    · have hsame := hd.eq_of_eq_zero hpq r
      rw [layered_of_eq_zero hpq]
      by_cases hqr : d q r = 0
      · rw [layered_of_eq_zero hqr, layered_of_eq_zero (hsame.trans hqr)]
        exact abs_sub_le _ _ _
      · rw [layered_of_ne_zero hqr, layered_of_ne_zero (hsame ▸ hqr), hsame]
        linarith [le_abs_self (position p - position q)]
    · have hapart := hd.nonneg p q
      rw [layered_of_ne_zero hpq]
      by_cases hqr : d q r = 0
      · have hsame : d p r = d p q := by
          rw [hd.symm p r, hd.symm p q]
          exact (hd.eq_of_eq_zero hqr p).symm
        rw [layered_of_eq_zero hqr, layered_of_ne_zero (hsame ▸ hpq), hsame]
        linarith [neg_abs_le (position q - position r)]
      · have hapart' := hd.nonneg q r
        rw [layered_of_ne_zero hqr]
        by_cases hpr : d p r = 0
        · -- out of the layer and back again
          rw [layered_of_eq_zero hpr, abs_le]
          constructor <;> linarith
        · rw [layered_of_ne_zero hpr]
          linarith [hd.triangle p q r]

/-- No distance is left when there was none below and the positions are the same. -/
theorem layered_eq_zero (hd : IsDistance d) (hposition : ∀ p, 0 < position p) {p q : α} :
    layered d position p q = 0 ↔ d p q = 0 ∧ position p = position q := by
  by_cases hzero : d p q = 0
  · rw [layered_of_eq_zero hzero, abs_eq_zero, sub_eq_zero]
    exact ⟨fun heq => ⟨hzero, heq⟩, And.right⟩
  · have hnonneg := hd.nonneg p q
    have hp := hposition p
    have hq := hposition q
    rw [layered_of_ne_zero hzero]
    constructor
    · intro hsum
      linarith
    · rintro ⟨habsurd, -⟩
      exact absurd habsurd hzero

end Layered

/-! ## Torus -/

/-- A cell of the grid. -/
@[ext] structure Cell (length : ℤ) where
  x : ℤ
  y : ℤ
  x_nonneg : 0 ≤ x
  x_lt : x < length
  y_nonneg : 0 ≤ y
  y_lt : y < length

/-- The shorter way between two coordinates. -/
def wrapped (length a b : ℤ) : ℤ := min |a - b| (length - |a - b|)

theorem wrapped_comm (length a b : ℤ) : wrapped length a b = wrapped length b a := by
  rw [wrapped, wrapped, abs_sub_comm]

section Wrapped

variable {length a b c : ℤ} (ha : 0 ≤ a ∧ a < length) (hb : 0 ≤ b ∧ b < length)

include ha hb

theorem wrapped_nonneg : 0 ≤ wrapped length a b := by
  simp only [wrapped, Int.abs_eq_natAbs]
  omega

theorem wrapped_eq_zero : wrapped length a b = 0 ↔ a = b := by
  simp only [wrapped, Int.abs_eq_natAbs]
  omega

theorem wrapped_triangle (hc : 0 ≤ c ∧ c < length) :
    wrapped length a c ≤ wrapped length a b + wrapped length b c := by
  simp only [wrapped, Int.abs_eq_natAbs]
  omega

omit ha hb in
/-- Going round the torus any number of times in addition is no shorter. -/
theorem wrapped_le (hab : |a - b| < length) (k : ℤ) : wrapped length a b ≤ |a - b + k * length| := by
  rcases lt_trichotomy k 0 with hneg | rfl | hpos
  · have hmul : k * length ≤ -length := by nlinarith [abs_nonneg (a - b)]
    simp only [wrapped, Int.abs_eq_natAbs] at *
    omega
  · rw [zero_mul, add_zero]
    exact min_le_left _ _
  · have hmul : length ≤ k * length := by nlinarith [abs_nonneg (a - b)]
    simp only [wrapped, Int.abs_eq_natAbs] at *
    omega

omit ha hb in
theorem exists_wrapped (hab : |a - b| < length) : ∃ k : ℤ, |a - b + k * length| = wrapped length a b := by
  by_cases hdirect : |a - b| ≤ length - |a - b|
  · refine ⟨0, ?_⟩
    rw [zero_mul, add_zero, wrapped, min_eq_left hdirect]
  · rw [wrapped, min_eq_right (not_le.mp hdirect).le]
    rcases le_total a b with hle | hle
    · refine ⟨1, ?_⟩
      rw [abs_of_nonpos (sub_nonpos.mpr hle)] at hab ⊢
      rw [abs_of_nonneg (by omega)]
      omega
    · refine ⟨-1, ?_⟩
      rw [abs_of_nonneg (sub_nonneg.mpr hle)] at hab ⊢
      rw [abs_of_nonpos (by omega)]
      omega

theorem abs_sub_lt_length : |a - b| < length :=
  abs_sub_lt_of_nonneg_of_lt ha.1 ha.2 hb.1 hb.2

/-- The shorter way stays as long when both coordinates move on. -/
theorem wrapped_shift (s : ℤ) :
    wrapped length ((a + s) % length) ((b + s) % length) = wrapped length a b := by
  have hpos : 0 < length := ha.1.trans_lt ha.2
  have hab := abs_sub_lt_length ha hb
  have hshifted : |(a + s) % length - (b + s) % length| < length :=
    abs_sub_lt_of_nonneg_of_lt (Int.emod_nonneg _ hpos.ne') (Int.emod_lt_of_pos _ hpos)
      (Int.emod_nonneg _ hpos.ne') (Int.emod_lt_of_pos _ hpos)
  have hmove : ∀ k : ℤ, (a + s) % length - (b + s) % length + k * length =
      a - b + (k - (a + s) / length + (b + s) / length) * length := by
    intro k
    rw [Int.emod_def, Int.emod_def]
    ring
  apply le_antisymm
  · obtain ⟨k, hk⟩ := exists_wrapped hab
    have hle := wrapped_le hshifted (k + (a + s) / length - (b + s) / length)
    have hback : k + (a + s) / length - (b + s) / length - (a + s) / length + (b + s) / length = k := by ring
    rw [hmove, hback] at hle
    rwa [← hk]
  · obtain ⟨k, hk⟩ := exists_wrapped hshifted
    rw [← hk, hmove]
    exact wrapped_le hab _

end Wrapped

theorem sqrt_sq_add_sq_mono {x y x' y' : ℝ} (hx : 0 ≤ x) (hy : 0 ≤ y) (hxx : x ≤ x') (hyy : y ≤ y') :
    √(x ^ 2 + y ^ 2) ≤ √(x' ^ 2 + y' ^ 2) :=
  Real.sqrt_le_sqrt (add_le_add (pow_le_pow_left₀ hx hxx 2) (pow_le_pow_left₀ hy hyy 2))

theorem sqrt_sq_add_sq_triangle (x y x' y' : ℝ) :
    √((x + x') ^ 2 + (y + y') ^ 2) ≤ √(x ^ 2 + y ^ 2) + √(x' ^ 2 + y' ^ 2) := by
  have hnorm := norm_add_le (⟨x, y⟩ : ℂ) ⟨x', y'⟩
  rwa [Complex.norm_eq_sqrt_sq_add_sq, Complex.norm_eq_sqrt_sq_add_sq,
    Complex.norm_eq_sqrt_sq_add_sq] at hnorm

/-- The four ways around the torus are compared coordinate by coordinate. -/
theorem min_four_ways {x x' y y' : ℝ} (hx : 0 ≤ x) (hx' : 0 ≤ x') (hy : 0 ≤ y) (hy' : 0 ≤ y') :
    min (min (min √(x ^ 2 + y ^ 2) √(x ^ 2 + y' ^ 2)) √(x' ^ 2 + y' ^ 2)) √(x' ^ 2 + y ^ 2) =
      √(min x x' ^ 2 + min y y' ^ 2) := by
  have hxmin := le_min hx hx'
  have hymin := le_min hy hy'
  apply le_antisymm
  · rcases le_total x x' with hxle | hxle <;> rcases le_total y y' with hyle | hyle
    · rw [min_eq_left hxle, min_eq_left hyle]
      exact (min_le_left _ _).trans ((min_le_left _ _).trans (min_le_left _ _))
    · rw [min_eq_left hxle, min_eq_right hyle]
      exact (min_le_left _ _).trans ((min_le_left _ _).trans (min_le_right _ _))
    · rw [min_eq_right hxle, min_eq_left hyle]
      exact min_le_right _ _
    · rw [min_eq_right hxle, min_eq_right hyle]
      exact (min_le_left _ _).trans (min_le_right _ _)
  · refine le_min (le_min (le_min ?_ ?_) ?_) ?_
    · exact sqrt_sq_add_sq_mono hxmin hymin (min_le_left _ _) (min_le_left _ _)
    · exact sqrt_sq_add_sq_mono hxmin hymin (min_le_left _ _) (min_le_right _ _)
    · exact sqrt_sq_add_sq_mono hxmin hymin (min_le_right _ _) (min_le_right _ _)
    · exact sqrt_sq_add_sq_mono hxmin hymin (min_le_right _ _) (min_le_left _ _)

namespace Cell

variable {length : ℤ}

theorem x_bounds (p : Cell length) : 0 ≤ p.x ∧ p.x < length := ⟨p.x_nonneg, p.x_lt⟩
theorem y_bounds (p : Cell length) : 0 ≤ p.y ∧ p.y < length := ⟨p.y_nonneg, p.y_lt⟩

/-- The distance on the torus. -/
noncomputable def torus (p q : Cell length) : ℝ :=
  √((wrapped length p.x q.x : ℝ) ^ 2 + (wrapped length p.y q.y : ℝ) ^ 2)

theorem torus_comm (p q : Cell length) : torus p q = torus q p := by
  rw [torus, torus, wrapped_comm length p.x, wrapped_comm length p.y]

/-- The distance on the torus is the shortest of all ways around it. -/
theorem torus_isLeast (p q : Cell length) :
    IsLeast (Set.range fun k : ℤ × ℤ =>
      √(((p.x - q.x + k.1 * length : ℤ) : ℝ) ^ 2 + ((p.y - q.y + k.2 * length : ℤ) : ℝ) ^ 2)) (torus p q) := by
  have hx := abs_sub_lt_length p.x_bounds q.x_bounds
  have hy := abs_sub_lt_length p.y_bounds q.y_bounds
  constructor
  · obtain ⟨k, hk⟩ := exists_wrapped hx
    obtain ⟨l, hl⟩ := exists_wrapped hy
    refine ⟨(k, l), ?_⟩
    dsimp only
    rw [torus, ← hk, ← hl, Int.cast_abs, Int.cast_abs, sq_abs, sq_abs]
  · rintro _ ⟨⟨k, l⟩, rfl⟩
    dsimp only
    rw [← sq_abs ((p.x - q.x + k * length : ℤ) : ℝ), ← sq_abs ((p.y - q.y + l * length : ℤ) : ℝ)]
    apply sqrt_sq_add_sq_mono
    · exact_mod_cast wrapped_nonneg p.x_bounds q.x_bounds
    · exact_mod_cast wrapped_nonneg p.y_bounds q.y_bounds
    · exact_mod_cast wrapped_le hx k
    · exact_mod_cast wrapped_le hy l

/-- The cell that is reached by a vector. -/
def shift (p : Cell length) (a b : ℤ) : Cell length where
  x := (p.x + a) % length
  y := (p.y + b) % length
  x_nonneg := Int.emod_nonneg _ (p.x_nonneg.trans_lt p.x_lt).ne'
  x_lt := Int.emod_lt_of_pos _ (p.x_nonneg.trans_lt p.x_lt)
  y_nonneg := Int.emod_nonneg _ (p.y_nonneg.trans_lt p.y_lt).ne'
  y_lt := Int.emod_lt_of_pos _ (p.y_nonneg.trans_lt p.y_lt)

theorem torus_shift (p q : Cell length) (a b : ℤ) : torus (p.shift a b) (q.shift a b) = torus p q := by
  unfold torus
  rw [shift, shift]
  dsimp only
  rw [wrapped_shift p.x_bounds q.x_bounds, wrapped_shift p.y_bounds q.y_bounds]

theorem torus_eq_zero {p q : Cell length} : torus p q = 0 ↔ p = q := by
  have hx := wrapped_nonneg p.x_bounds q.x_bounds
  have hy := wrapped_nonneg p.y_bounds q.y_bounds
  rw [torus, Real.sqrt_eq_zero (by positivity), Cell.ext_iff, ← wrapped_eq_zero p.x_bounds q.x_bounds,
    ← wrapped_eq_zero p.y_bounds q.y_bounds]
  constructor
  · intro hsum
    have hsq : wrapped length p.x q.x ^ 2 + wrapped length p.y q.y ^ 2 = 0 := by exact_mod_cast hsum
    constructor <;> nlinarith
  · rintro ⟨hx0, hy0⟩
    simp [hx0, hy0]

theorem isDistance_torus : IsDistance (torus : Cell length → Cell length → ℝ) where
  self p := torus_eq_zero.mpr rfl
  symm := torus_comm
  triangle p q r := by
    have hx : (wrapped length p.x r.x : ℝ) ≤ wrapped length p.x q.x + wrapped length q.x r.x := by
      exact_mod_cast wrapped_triangle p.x_bounds q.x_bounds r.x_bounds
    have hy : (wrapped length p.y r.y : ℝ) ≤ wrapped length p.y q.y + wrapped length q.y r.y := by
      exact_mod_cast wrapped_triangle p.y_bounds q.y_bounds r.y_bounds
    have hx0 : (0 : ℝ) ≤ wrapped length p.x r.x := by
      exact_mod_cast wrapped_nonneg p.x_bounds r.x_bounds
    have hy0 : (0 : ℝ) ≤ wrapped length p.y r.y := by
      exact_mod_cast wrapped_nonneg p.y_bounds r.y_bounds
    exact (sqrt_sq_add_sq_mono hx0 hy0 hx hy).trans (sqrt_sq_add_sq_triangle _ _ _ _)

end Cell

end Mmog.Ruby
