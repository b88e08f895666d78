import Mathlib.Algebra.Ring.Parity
import Mathlib.Algebra.Order.Ring.Int
import Mathlib.Tactic.Linarith
import Mathlib.Tactic.Ring

/-!
# Pairs of numbers along the diagonals

The pairs of natural numbers are counted diagonal by diagonal.  The diagonal of
a pair is found again between two neighbouring products, which makes the
numbering injective.
-/

namespace Mmog.Ruby

/-- The number of the pair `(x, y)`. -/
def pairing (x y : ℤ) : ℤ := (x + y) * (x + y + 1) / 2 + y

theorem two_mul_half_mul_succ (n : ℤ) : 2 * (n * (n + 1) / 2) = n * (n + 1) :=
  Int.mul_ediv_cancel' (Int.even_mul_succ_self n).two_dvd

theorem two_mul_pairing (x y : ℤ) : 2 * pairing x y = (x + y) * (x + y + 1) + 2 * y := by
  rw [pairing, mul_add, two_mul_half_mul_succ]

theorem pairing_nonneg {x y : ℤ} (hx : 0 ≤ x) (hy : 0 ≤ y) : 0 ≤ pairing x y := by
  have htwo := two_mul_pairing x y
  have hmul : 0 ≤ (x + y) * (x + y + 1) := mul_nonneg (by omega) (by omega)
  omega

/-- A pair lies before every pair of a later diagonal. -/
theorem pairing_lt {x y x' y' : ℤ} (hx : 0 ≤ x) (hy : 0 ≤ y) (hy' : 0 ≤ y')
    (hdiagonal : x + y < x' + y') : pairing x y < pairing x' y' := by
  have hstep : (x + y + 1) * (x + y + 2) ≤ (x' + y') * (x' + y' + 1) :=
    mul_le_mul (by omega) (by omega) (by omega) (by omega)
  have hsplit : (x + y + 1) * (x + y + 2) = (x + y) * (x + y + 1) + 2 * (x + y + 1) := by ring
  have hleft := two_mul_pairing x y
  have hright := two_mul_pairing x' y'
  omega

theorem pairing_injective {x y x' y' : ℤ} (hx : 0 ≤ x) (hy : 0 ≤ y) (hx' : 0 ≤ x') (hy' : 0 ≤ y')
    (heq : pairing x y = pairing x' y') : x = x' ∧ y = y' := by
  rcases lt_trichotomy (x + y) (x' + y') with hlt | hsame | hgt
  · exact absurd heq (pairing_lt hx hy hy' hlt).ne
  · unfold pairing at heq
    rw [hsame] at heq
    omega
  · exact absurd heq (pairing_lt hx' hy' hy hgt).ne'

/-- A pair is read back from its number and its diagonal. -/
theorem pairing_sub_half (x y : ℤ) : pairing x y - (x + y) * (x + y + 1) / 2 = y := by
  unfold pairing
  omega

/-- Every number is that of a pair: the pairs of a diagonal follow one another, and its last pair
is followed by the first one of the next diagonal. -/
theorem exists_pairing {n : ℤ} (hn : 0 ≤ n) : ∃ x y, 0 ≤ x ∧ 0 ≤ y ∧ pairing x y = n := by
  induction n, hn using Int.leInduction with
  | base => exact ⟨0, 0, le_rfl, le_rfl, rfl⟩
  | succ n _ ih =>
      obtain ⟨x, y, hx, hy, hpairing⟩ := ih
      have htwo := two_mul_pairing x y
      by_cases hlast : x = 0
      · have hnext := two_mul_pairing (y + 1) 0
        have hstep : (y + 1 + 0) * (y + 1 + 0 + 1) = (x + y) * (x + y + 1) + 2 * y + 2 := by
          rw [hlast]
          ring
        exact ⟨y + 1, 0, by omega, le_rfl, by omega⟩
      · have hnext := two_mul_pairing (x - 1) (y + 1)
        rw [show x - 1 + (y + 1) = x + y by ring] at hnext
        exact ⟨x - 1, y + 1, by omega, by omega, by omega⟩

example : (pairing 0 0, pairing 1 0, pairing 0 1, pairing 2 0) = (0, 1, 2, 3) := by decide

end Mmog.Ruby
