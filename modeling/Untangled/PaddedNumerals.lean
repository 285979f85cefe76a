import Mathlib.Data.List.Basic
import Mathlib.Tactic

/-!
# Padded decimal numerals

The decimal digits of a number behind as many zeros as make up a width.  The
zeros do not change the number, so a numeral of any width is read back.
-/

namespace PaddedNumerals

/-- At least `width` characters, with zeros in front. -/
def padLeft (width : ℕ) (s : List Char) : List Char :=
  List.replicate (width - s.length) '0' ++ s

/-- The numeral of `n` with at least `width` digits. -/
def padded (width n : ℕ) : List Char :=
  padLeft width (Nat.toDigits 10 n)

def value (digits : List Char) : ℕ :=
  Nat.ofDigitChars 10 digits 0

theorem length_padLeft (width : ℕ) (s : List Char) :
    (padLeft width s).length = max width s.length := by
  rw [padLeft, List.length_append, List.length_replicate]
  omega

@[simp] theorem value_padLeft (width : ℕ) (s : List Char) :
    value (padLeft width s) = value s := by
  rw [value, padLeft, Nat.ofDigitChars_append, Nat.ofDigitChars_replicate_zero, Nat.mul_zero]
  rfl

@[simp] theorem value_padded (width n : ℕ) : value (padded width n) = n := by
  rw [padded, value_padLeft, value, Nat.ofDigitChars_ten_toDigits]

theorem padded_injective (width : ℕ) : Function.Injective (padded width) := by
  intro n m h
  have hvalue := congrArg value h
  rwa [value_padded, value_padded] at hvalue

theorem isDigit_of_mem_padded
    {width n : ℕ} {c : Char}
    (hc : c ∈ padded width n) :
    c.isDigit = true := by
  rcases List.mem_append.mp hc with hzero | hdigit
  · rw [List.eq_of_mem_replicate hzero]
    rfl
  · exact Nat.isDigit_of_mem_toDigits (by decide) (by decide) hdigit

theorem padded_ne_nil (width n : ℕ) : padded width n ≠ [] := by
  intro h
  have hdigits := (List.append_eq_nil_iff.mp h).2
  exact Nat.toDigits_ne_nil hdigits

theorem length_padded (width n : ℕ) :
    (padded width n).length = max width (Nat.toDigits 10 n).length :=
  length_padLeft width _

end PaddedNumerals
