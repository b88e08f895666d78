import Mathlib.Data.Int.ModEq
import Mmog.Model.Galaxy
import Mmog.Ruby.Unpairing

/-!
# Cells and coordinates

The number of a galaxy tells its cell of the torus, and `getCoords` reads the
cell back as long as the diagonal is read right.
-/

namespace Mmog.Map

open Ruby

namespace Settings

variable (settings : Settings)

theorem worldLength_ne_zero : settings.worldLength ≠ 0 := by
  have hpos := settings.worldLength_pos
  omega

theorem emod_nonneg (a : ℤ) : 0 ≤ a % settings.worldLength :=
  Int.emod_nonneg a settings.worldLength_ne_zero

theorem emod_lt (a : ℤ) : a % settings.worldLength < settings.worldLength :=
  Int.emod_lt_of_pos a settings.worldLength_pos

end Settings

variable (settings : Settings)

/-- The number of the galaxy in the cell of `(a, b)`. -/
def cell (a b : ℤ) : ℤ := Galaxy.calcX settings (.int a) (.int b)

theorem cell_eq (a b : ℤ) :
    cell settings a b = pairing (a % settings.worldLength) (b % settings.worldLength) + 1 := rfl

theorem cell_pos (a b : ℤ) : 0 < cell settings a b := by
  have hnonneg := pairing_nonneg (settings.emod_nonneg a) (settings.emod_nonneg b)
  exact Int.lt_add_one_of_le hnonneg

@[simp] theorem cell_emod (a b : ℤ) :
    cell settings (a % settings.worldLength) (b % settings.worldLength) = cell settings a b := by
  rw [cell_eq, Int.emod_emod, Int.emod_emod, ← cell_eq]

/-- Two pairs of coordinates mean the same cell when they agree up to the length of the world. -/
theorem cell_eq_iff {a b c d : ℤ} : cell settings a b = cell settings c d ↔
    a % settings.worldLength = c % settings.worldLength ∧
      b % settings.worldLength = d % settings.worldLength := by
  constructor
  · intro heq
    exact pairing_injective (settings.emod_nonneg a) (settings.emod_nonneg b) (settings.emod_nonneg c)
      (settings.emod_nonneg d) (add_right_cancel heq)
  · rintro ⟨ha, hb⟩
    rw [cell_eq, cell_eq, ha, hb]

theorem cell_add_emod (a b i j : ℤ) :
    cell settings (a % settings.worldLength + i) (b % settings.worldLength + j) =
      cell settings (a + i) (b + j) :=
  (cell_eq_iff settings).mpr ⟨Int.emod_add_emod a settings.worldLength i, Int.emod_add_emod b settings.worldLength j⟩

section Reading

variable (R : Type) [Add R] [Sub R] [Floating R]

/-- Every cell of the world is read back from its number. -/
def ReadsBack : Prop :=
  ∀ a b, Galaxy.getCoords R ⟨cell settings a b⟩ = (a % settings.worldLength, b % settings.worldLength)

theorem getCoords_add_one {n : ℤ} (hn : 0 ≤ n) : Galaxy.getCoords R ⟨n + 1⟩ =
    (diagonal R n - (n - diagonal R n * (diagonal R n + 1) / 2),
      n - diagonal R n * (diagonal R n + 1) / 2) := by
  unfold Galaxy.getCoords
  rw [if_pos (Int.lt_add_one_of_le hn)]
  simp only [add_sub_cancel_right]
  rfl

theorem getCoords_of_diagonal {x y : ℤ} (hx : 0 ≤ x) (hy : 0 ≤ y)
    (hdiagonal : diagonal R (pairing x y) = x + y) :
    Galaxy.getCoords R ⟨pairing x y + 1⟩ = (x, y) := by
  rw [getCoords_add_one R (pairing_nonneg hx hy), hdiagonal, pairing_sub_half, add_sub_cancel_right]

end Reading

theorem readsBack_real : ReadsBack settings ℝ := fun a b =>
  getCoords_of_diagonal ℝ (settings.emod_nonneg a) (settings.emod_nonneg b)
    (diagonal_real (settings.emod_nonneg a) (settings.emod_nonneg b))

theorem readsBack_double (hlength : settings.worldLength < 2 ^ 27) : ReadsBack settings Double := by
  intro a b
  have ha := settings.emod_lt a
  have hb := settings.emod_lt b
  exact getCoords_of_diagonal Double (settings.emod_nonneg a) (settings.emod_nonneg b)
    (diagonal_double_eq (settings.emod_nonneg a) (settings.emod_nonneg b) (by omega) (by omega))

/-- From length `2 ^ 27` on the cell `(0, 2 ^ 27 - 1)` is read as one outside of the grid. -/
theorem getCoords_edge (hlength : 2 ^ 27 ≤ settings.worldLength) :
    Galaxy.getCoords Double ⟨cell settings 0 (2 ^ 27 - 1)⟩ = (2 ^ 27 + 1, -1) := by
  have hcell : cell settings 0 (2 ^ 27 - 1) = pairing 0 (2 ^ 27 - 1) + 1 := by
    rw [cell_eq, Int.zero_emod, Int.emod_eq_of_lt (by norm_num) (by omega)]
  rw [hcell, getCoords_add_one Double (by decide), diagonal_double_edge]
  decide

/-- With exact square roots every cell has one number, and every number from one on is read as the
pair of coordinates that it was made of. -/
theorem numbering_is_bijection (settings : Settings) :
    (∀ x y, Galaxy.getCoords ℝ ⟨Galaxy.calcX settings (.int x) (.int y)⟩ =
      (x % settings.worldLength, y % settings.worldLength)) ∧
    (∀ x y x' y', Galaxy.calcX settings (.int x) (.int y) = Galaxy.calcX settings (.int x') (.int y') ↔
      x ≡ x' [ZMOD settings.worldLength] ∧ y ≡ y' [ZMOD settings.worldLength]) ∧
    ∀ n : ℤ, 1 ≤ n → ∃ x y : ℤ, Galaxy.getCoords ℝ ⟨n⟩ = (x, y) ∧ 0 ≤ x ∧ 0 ≤ y ∧
      (x + y) * (x + y + 1) / 2 + y + 1 = n := by
  refine ⟨readsBack_real settings, fun x y x' y' => cell_eq_iff settings, fun n hn => ?_⟩
  obtain ⟨x, y, hx, hy, hpairing⟩ := exists_pairing (show 0 ≤ n - 1 by omega)
  have hnumber : pairing x y + 1 = n := by omega
  refine ⟨x, y, ?_, hx, hy, hnumber⟩
  rw [← hnumber]
  exact getCoords_of_diagonal ℝ hx hy (diagonal_real hx hy)

end Mmog.Map
