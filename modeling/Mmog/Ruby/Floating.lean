import Mathlib.Analysis.Real.Sqrt
import Mmog.Ruby.Sqrt

/-!
# Readings of `Float`

A program that computes with `Float` can be read in two ways: every operation
rounds to binary64, or every operation is exact.  `Floating` is what both
readings have in common, so a function is written once and meant twice.
-/

namespace Mmog.Ruby

/-- What a reading of `Float` has besides its order and its arithmetic. -/
class Floating (R : Type) where
  /-- The operand an `Integer` is converted to. -/
  ofInt : ℤ → R
  /-- A decimal literal of the program. -/
  lit : ℚ → R
  sqrt : R → R
  floor : R → ℤ

/-- A binary64 number. -/
@[ext] structure Double where
  value : ℚ
  rounded : Binary64.round value = value

namespace Double

/-- The nearest binary64 number. -/
def of (q : ℚ) : Double := ⟨Binary64.round q, Binary64.round_round q⟩

@[simp] theorem value_of (q : ℚ) : (of q).value = Binary64.round q := rfl

instance : LinearOrder Double := LinearOrder.lift' value fun _ _ => Double.ext

instance : Add Double := ⟨fun x y => of (x.value + y.value)⟩
instance : Sub Double := ⟨fun x y => of (x.value - y.value)⟩
instance : Mul Double := ⟨fun x y => of (x.value * y.value)⟩

instance : Floating Double where
  ofInt n := of n
  lit := of
  sqrt x := ⟨Binary64.sqrt x.value, Binary64.round_sqrt x.value⟩
  floor x := ⌊x.value⌋

theorem value_add (x y : Double) : (x + y).value = Binary64.round (x.value + y.value) := rfl
theorem value_sub (x y : Double) : (x - y).value = Binary64.round (x.value - y.value) := rfl

theorem value_ofInt (n : ℤ) : (Floating.ofInt n : Double).value = Binary64.round n := rfl
theorem value_lit (q : ℚ) : (Floating.lit q : Double).value = Binary64.round q := rfl
theorem value_sqrt (x : Double) : (Floating.sqrt x).value = Binary64.sqrt x.value := rfl
theorem floor_eq (x : Double) : Floating.floor x = ⌊x.value⌋ := rfl

end Double

/-- The exact reading. -/
noncomputable instance : Floating ℝ where
  ofInt n := n
  lit q := q
  sqrt := Real.sqrt
  floor x := ⌊x⌋

namespace Floating

@[simp] theorem ofInt_real (n : ℤ) : (ofInt n : ℝ) = n := rfl
@[simp] theorem lit_real (q : ℚ) : (lit q : ℝ) = q := rfl
@[simp] theorem sqrt_real (x : ℝ) : sqrt x = Real.sqrt x := rfl
@[simp] theorem floor_real (x : ℝ) : floor x = ⌊x⌋ := rfl

end Floating

end Mmog.Ruby
