import Mmog.Ruby.Binary64

/-!
# Integers and floats

The arithmetic of `Integer` and `Float`: an operation on two integers is exact,
any other one converts both sides to binary64 and rounds the result.
Comparisons are exact.  An integer column stores `toI` of what is assigned.
-/

namespace Mmog.Ruby

inductive Numeric where
  | int (n : ℤ)
  | float (q : ℚ)
  deriving DecidableEq, Repr

namespace Numeric

/-- The number meant. -/
def value : Numeric → ℚ
  | .int n => n
  | .float q => q

/-- The operand of a float operation. -/
def toF : Numeric → ℚ
  | .int n => Binary64.round n
  | .float q => q

def add : Numeric → Numeric → Numeric
  | .int m, .int n => .int (m + n)
  | x, y => .float (Binary64.round (x.toF + y.toF))

def sub : Numeric → Numeric → Numeric
  | .int m, .int n => .int (m - n)
  | x, y => .float (Binary64.round (x.toF - y.toF))

def mul : Numeric → Numeric → Numeric
  | .int m, .int n => .int (m * n)
  | x, y => .float (Binary64.round (x.toF * y.toF))

/-- Division by something other than zero; between integers it rounds down. -/
def div : Numeric → Numeric → Numeric
  | .int m, .int n => .int (m.fdiv n)
  | x, y => .float (Binary64.round (x.toF / y.toF))

/-- Truncation towards zero. -/
def toI : Numeric → ℤ
  | .int n => n
  | .float q => if 0 ≤ q then ⌊q⌋ else ⌈q⌉

/-- The nearest integer, halves away from zero. -/
def round : Numeric → ℤ
  | .int n => n
  | .float q => if 0 ≤ q then ⌊q + 1 / 2⌋ else ⌈q - 1 / 2⌉

/-- A decimal literal of the program. -/
def lit (q : ℚ) : Numeric := .float (Binary64.round q)

instance : Add Numeric := ⟨add⟩
instance : Sub Numeric := ⟨sub⟩
instance : Mul Numeric := ⟨mul⟩
instance : Div Numeric := ⟨div⟩
instance : Coe ℤ Numeric := ⟨.int⟩
instance (n : ℕ) : OfNat Numeric n := ⟨.int n⟩
instance : LE Numeric := ⟨fun x y => x.value ≤ y.value⟩
instance : LT Numeric := ⟨fun x y => x.value < y.value⟩

instance (x y : Numeric) : Decidable (x ≤ y) := inferInstanceAs (Decidable (x.value ≤ y.value))
instance (x y : Numeric) : Decidable (x < y) := inferInstanceAs (Decidable (x.value < y.value))

theorem le_iff (x y : Numeric) : x ≤ y ↔ x.value ≤ y.value := Iff.rfl
theorem lt_iff (x y : Numeric) : x < y ↔ x.value < y.value := Iff.rfl

@[simp] theorem value_int (n : ℤ) : (int n).value = n := rfl
@[simp] theorem value_float (q : ℚ) : (float q).value = q := rfl
@[simp] theorem value_ofNat (n : ℕ) : (no_index (OfNat.ofNat n) : Numeric).value = (n : ℤ) := rfl
@[simp] theorem value_zero : (0 : Numeric).value = 0 := rfl
@[simp] theorem toI_int (n : ℤ) : (int n).toI = n := rfl
@[simp] theorem int_add_int (m n : ℤ) : int m + int n = int (m + n) := rfl
@[simp] theorem int_sub_int (m n : ℤ) : int m - int n = int (m - n) := rfl
@[simp] theorem int_mul_int (m n : ℤ) : int m * int n = int (m * n) := rfl

theorem toI_zero_mul_float (q : ℚ) : (int 0 * float q).toI = 0 := by
  have hzero : int 0 * float q = float (Binary64.round (Binary64.round ((0 : ℤ) : ℚ) * q)) := rfl
  rw [hzero, Int.cast_zero, Binary64.round_zero, zero_mul, Binary64.round_zero]
  rfl

theorem not_le_iff {x y : Numeric} : ¬ x ≤ y ↔ y < x := by
  simp only [le_iff, lt_iff, not_le]

theorem not_lt_iff {x y : Numeric} : ¬ x < y ↔ y ≤ x := by
  simp only [le_iff, lt_iff, not_lt]

/-! ## Signs -/

theorem toF_nonneg {x : Numeric} (hx : 0 ≤ x.value) : 0 ≤ x.toF := by
  cases x with
  | int n => exact Binary64.round_nonneg hx
  | float q => exact hx

theorem value_add_nonneg {x y : Numeric} (hx : 0 ≤ x.value) (hy : 0 ≤ y.value) : 0 ≤ (x + y).value := by
  have hfloat : 0 ≤ Binary64.round (x.toF + y.toF) :=
    Binary64.round_nonneg (add_nonneg (toF_nonneg hx) (toF_nonneg hy))
  cases x with
  | float q => exact hfloat
  | int m =>
      cases y with
      | float q => exact hfloat
      | int n =>
          rw [int_add_int, value_int, Int.cast_add]
          exact add_nonneg hx hy

theorem value_mul_nonneg {x y : Numeric} (hx : 0 ≤ x.value) (hy : 0 ≤ y.value) : 0 ≤ (x * y).value := by
  have hfloat : 0 ≤ Binary64.round (x.toF * y.toF) :=
    Binary64.round_nonneg (mul_nonneg (toF_nonneg hx) (toF_nonneg hy))
  cases x with
  | float q => exact hfloat
  | int m =>
      cases y with
      | float q => exact hfloat
      | int n =>
          rw [int_mul_int, value_int, Int.cast_mul]
          exact mul_nonneg hx hy

theorem value_div_nonneg {x y : Numeric} (hx : 0 ≤ x.value) (hy : 0 ≤ y.value) : 0 ≤ (x / y).value := by
  have hfloat : 0 ≤ Binary64.round (x.toF / y.toF) :=
    Binary64.round_nonneg (div_nonneg (toF_nonneg hx) (toF_nonneg hy))
  cases x with
  | float q => exact hfloat
  | int m =>
      cases y with
      | float q => exact hfloat
      | int n =>
          rw [value_int] at hx hy
          have hquotient : 0 ≤ m.fdiv n :=
            Int.fdiv_nonneg (by exact_mod_cast hx) (by exact_mod_cast hy)
          change (0 : ℚ) ≤ ((m.fdiv n : ℤ) : ℚ)
          exact_mod_cast hquotient

theorem toI_nonneg {x : Numeric} (hx : 0 ≤ x.value) : 0 ≤ x.toI := by
  cases x with
  | int n =>
      rw [value_int] at hx
      exact_mod_cast hx
  | float q =>
      rw [toI, if_pos (show 0 ≤ q from hx)]
      exact Int.floor_nonneg.mpr hx

theorem toI_float_neg {q : ℚ} (hq : 0 ≤ q) : (float (-q)).toI = -⌊q⌋ := by
  rw [toI]
  split
  · have hzero : q = 0 := by linarith
    simp [hzero]
  · exact Int.ceil_neg

theorem round_nonneg {x : Numeric} (hx : 0 ≤ x.value) : 0 ≤ x.round := by
  cases x with
  | int n =>
      rw [value_int] at hx
      exact_mod_cast hx
  | float q =>
      have hq : 0 ≤ q := hx
      rw [round, if_pos hq]
      exact Int.floor_nonneg.mpr (add_nonneg hq (by norm_num))

/-- An integer or a binary64 number, as every operation gives it. -/
def Rounded : Numeric → Prop
  | .int _ => True
  | .float q => Binary64.round q = q

theorem rounded_add (x y : Numeric) : (x + y).Rounded := by
  cases x with
  | float q => exact Binary64.round_round _
  | int m =>
      cases y with
      | float q => exact Binary64.round_round _
      | int n => trivial

theorem rounded_mul (x y : Numeric) : (x * y).Rounded := by
  cases x with
  | float q => exact Binary64.round_round _
  | int m =>
      cases y with
      | float q => exact Binary64.round_round _
      | int n => trivial

theorem rounded_div (x y : Numeric) : (x / y).Rounded := by
  cases x with
  | float q => exact Binary64.round_round _
  | int m =>
      cases y with
      | float q => exact Binary64.round_round _
      | int n => trivial

theorem toI_sub_nonneg {n : ℤ} {x : Numeric} (hx : x.Rounded) (hle : x.value ≤ n) :
    0 ≤ ((n : Numeric) - x).toI := by
  cases x with
  | int m =>
      rw [int_sub_int, toI_int]
      exact sub_nonneg.mpr (Int.cast_le.mp hle)
  | float q =>
      have hround : q ≤ Binary64.round n := by
        rw [← (show Binary64.round q = q from hx)]
        exact Binary64.round_mono hle
      have hvalue : 0 ≤ ((n : Numeric) - .float q).value :=
        Binary64.round_nonneg (sub_nonneg.mpr hround)
      exact toI_nonneg hvalue

theorem toI_le {x : Numeric} {n : ℤ} (hle : x.value ≤ n) (hn : 0 ≤ n) : x.toI ≤ n := by
  cases x with
  | int m => exact Int.cast_le.mp hle
  | float q =>
      rw [toI]
      split
      · exact Int.floor_le_iff.mpr (lt_of_le_of_lt hle (lt_add_one _))
      · have hceil : ⌈q⌉ ≤ 0 := Int.ceil_le.mpr (by push_cast; linarith)
        exact hceil.trans hn

theorem toI_sub_le {n : ℤ} {x : Numeric} (hn : 0 ≤ n) (hbound : n < 2 ^ 53) (hx : 0 ≤ x.value) :
    ((n : Numeric) - x).toI ≤ n := by
  refine toI_le ?_ hn
  cases x with
  | int m =>
      rw [int_sub_int, value_int, Int.cast_sub]
      exact sub_le_self _ hx
  | float q =>
      have hexact : Binary64.round n = n := Binary64.round_intCast (by rwa [abs_of_nonneg hn])
      calc ((n : Numeric) - .float q).value = Binary64.round (Binary64.round n - q) := rfl
        _ ≤ Binary64.round n := Binary64.round_mono (by
            rw [hexact]
            exact sub_le_self _ hx)
        _ = n := hexact

/-! ## Order -/

theorem toI_mono {x y : Numeric} (hxy : x.value ≤ y.value) : x.toI ≤ y.toI := by
  have htoI : ∀ z : Numeric, z.toI = if 0 ≤ z.value then ⌊z.value⌋ else ⌈z.value⌉ := by
    intro z
    cases z with
    | int n => simp only [toI_int, value_int, Int.floor_intCast, Int.ceil_intCast, ite_self]
    | float q => rfl
  rw [htoI, htoI]
  split
  case isTrue hx =>
    rw [if_pos (hx.trans hxy)]
    exact Int.floor_le_floor hxy
  case isFalse hx =>
    split
    case isTrue hy =>
      have hceil : ⌈x.value⌉ ≤ 0 := Int.ceil_le.mpr (by exact_mod_cast (not_le.mp hx).le)
      exact hceil.trans (Int.floor_nonneg.mpr hy)
    case isFalse => exact Int.ceil_le_ceil hxy

/-- Multiplying integers with the same number keeps their order. -/
theorem value_int_mul_mono {m n : ℤ} (hmn : m ≤ n) {x : Numeric} (hx : 0 ≤ x.value) :
    (int m * x).value ≤ (int n * x).value := by
  have hcast : (m : ℚ) ≤ n := Int.cast_le.mpr hmn
  cases x with
  | int k =>
      rw [int_mul_int, int_mul_int, value_int, value_int, Int.cast_mul, Int.cast_mul]
      exact mul_le_mul_of_nonneg_right hcast hx
  | float q => exact Binary64.round_mono (mul_le_mul_of_nonneg_right (Binary64.round_mono hcast) hx)

/-! ## Whole numbers -/

theorem toI_of_value {x : Numeric} {k : ℤ} (hx : x.value = k) : x.toI = k := by
  cases x with
  | int n => exact Int.cast_inj.mp hx
  | float q =>
      rw [value_float] at hx
      rw [toI, hx, Int.floor_intCast, Int.ceil_intCast, ite_self]

/-- The difference of whole numbers is whole, though it may be rounded. -/
theorem exists_value_sub {x : Numeric} {k : ℤ} (hx : x.value = k) (n : ℤ) :
    ∃ m : ℤ, ((n : Numeric) - x).value = m := by
  cases x with
  | int j => exact ⟨n - j, rfl⟩
  | float q =>
      obtain ⟨rounded, hrounded⟩ := Binary64.exists_round_intCast n
      obtain ⟨m, hm⟩ := Binary64.exists_round_intCast (rounded - k)
      refine ⟨m, ?_⟩
      rw [value_float] at hx
      calc ((n : Numeric) - .float q).value = Binary64.round (Binary64.round n - q) := rfl
        _ = Binary64.round ((rounded - k : ℤ) : ℚ) := by rw [hrounded, hx, Int.cast_sub]
        _ = m := hm

/-- Whole numbers below `2 ^ 53` are subtracted exactly. -/
theorem value_sub_of_lt {x : Numeric} {k n : ℤ} (hx : x.value = k) (hk : 0 ≤ k) (hle : k ≤ n)
    (hbound : n < 2 ^ 53) : ((n : Numeric) - x).value = n - x.value := by
  cases x with
  | int j => exact Int.cast_sub n j
  | float q =>
      rw [value_float] at hx
      have hn : Binary64.round n = n := Binary64.round_intCast (by rw [abs_of_nonneg] <;> omega)
      have hdiff : Binary64.round ((n - k : ℤ) : ℚ) = (n - k : ℤ) :=
        Binary64.round_intCast (by rw [abs_of_nonneg] <;> omega)
      calc ((n : Numeric) - .float q).value = Binary64.round (Binary64.round n - q) := rfl
        _ = Binary64.round ((n - k : ℤ) : ℚ) := by rw [hn, hx, Int.cast_sub]
        _ = n - q := by rw [hdiff, hx, Int.cast_sub]

end Numeric

end Mmog.Ruby
