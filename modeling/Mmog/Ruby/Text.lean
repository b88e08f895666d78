import Mathlib.Data.Nat.Notation
import Mathlib.Data.Int.Notation

/-!
# Numbers in texts

`to_i` reads the number at the start of a text, after blanks and a sign, with single
underscores between digits, and 0 if there is none.
-/

namespace Mmog.Ruby

/-- The digits at the start, behind the number that is read so far. -/
def digitsFrom (read : ℕ) : List Char → ℕ
  | [] => read
  | '_' :: c :: rest => if c.isDigit then digitsFrom (10 * read + (c.toNat - '0'.toNat)) rest else read
  | c :: rest => if c.isDigit then digitsFrom (10 * read + (c.toNat - '0'.toNat)) rest else read

/-- The number at the start; it does not begin with an underscore. -/
def digits : List Char → ℕ
  | '_' :: _ => 0
  | text => digitsFrom 0 text

def isWhite (c : Char) : Bool := c.toNat = 32 ∨ (9 ≤ c.toNat ∧ c.toNat ≤ 13)

def toI (text : List Char) : ℤ :=
  match text.dropWhile isWhite with
  | '-' :: rest => -(digits rest : ℤ)
  | '+' :: rest => digits rest
  | rest => digits rest

theorem digitsFrom_of_isDigit {text : List Char} (htext : ∀ c ∈ text, c.isDigit = true) (read : ℕ) :
    digitsFrom read text = Nat.ofDigitChars 10 text read := by
  induction text generalizing read with
  | nil => rw [digitsFrom, Nat.ofDigitChars_nil]
  | cons c rest ih =>
      obtain ⟨hc, hrest⟩ := List.forall_mem_cons.mp htext
      have hne : c ≠ '_' := by
        rintro rfl
        cases hc
      rw [digitsFrom, if_pos hc, Nat.ofDigitChars_cons, ih hrest]
      rintro d others rfl
      exact absurd rfl hne

theorem isDigit_of_mem_toDigits {n : ℕ} : ∀ c ∈ Nat.toDigits 10 n, c.isDigit = true := fun _ hc =>
  Nat.isDigit_of_mem_toDigits (by decide) (by decide) hc

theorem digits_toDigits (n : ℕ) : digits (Nat.toDigits 10 n) = n := by
  have hdigits : digits (Nat.toDigits 10 n) = digitsFrom 0 (Nat.toDigits 10 n) := by
    rw [digits]
    intro rest heq
    exact absurd (isDigit_of_mem_toDigits '_' (heq ▸ List.mem_cons_self)) (by decide)
  rw [hdigits, digitsFrom_of_isDigit isDigit_of_mem_toDigits, Nat.ofDigitChars_ten_toDigits]

theorem isWhite_of_isDigit {c : Char} (hc : c.isDigit = true) : isWhite c = false := by
  rw [Char.isDigit, Bool.and_eq_true, decide_eq_true_eq] at hc
  have hle : 48 ≤ c.toNat := UInt32.le_iff_toNat_le.mp hc.1
  refine decide_eq_false fun hblank => ?_
  omega

/-- A text of digits has no blanks and no sign. -/
theorem toI_of_isDigit {text : List Char} (htext : ∀ c ∈ text, c.isDigit = true) : toI text = digits text := by
  cases text with
  | nil => rfl
  | cons c rest =>
      have hc := htext c List.mem_cons_self
      rw [toI, List.dropWhile_cons_of_neg (by rw [isWhite_of_isDigit hc]; exact Bool.false_ne_true)]
      split
      · rename_i heq
        cases heq
        cases hc
      · rename_i heq
        cases heq
        cases hc
      · rfl

/-- What a number is written as is read as the number. -/
theorem toI_toString (n : ℤ) : toI (toString n).toList = n := by
  rw [Int.toString_eq_repr, Int.repr_eq_if]
  split
  · rename_i hnonneg
    rw [Nat.toList_repr, toI_of_isDigit isDigit_of_mem_toDigits, digits_toDigits, Int.toNat_of_nonneg hnonneg]
  · rename_i hneg
    rw [String.toList_append, Nat.toList_repr]
    have hsign : toI ("-".toList ++ Nat.toDigits 10 (-n).toNat) = -(digits (Nat.toDigits 10 (-n).toNat) : ℤ) := rfl
    rw [hsign, digits_toDigits]
    omega

end Mmog.Ruby
