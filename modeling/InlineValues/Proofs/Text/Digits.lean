import InlineValues.Text.Digits
import InlineValues.Text.Trim
import Mathlib.Algebra.Group.Nat.Defs
import Mathlib.Data.List.Basic

/-!
# Decimal digits that are read back

A number is written with its decimal digits (`Nat.toDigits 10`), and these are read back as the
number (`digitsValue_toDigits`, `readCount?_toDigits`).  None of them is white space, and only zero
begins with a zero.
-/

namespace InlineValues

lemma isDecimalDigit_of_mem_toDigits {n : Nat} {c : Char} (h : c ∈ Nat.toDigits 10 n) :
    isDecimalDigit c = true :=
  Nat.isDigit_of_mem_toDigits (by decide) (by decide) h

lemma digitsValue_eq (cs : List Char) : digitsValue cs = Nat.ofDigitChars 10 cs 0 := by
  simp only [digitsValue, Nat.ofDigitChars, Nat.mul_comm 10]

/-- A number is read back from its digits. -/
theorem digitsValue_toDigits (n : Nat) : digitsValue (Nat.toDigits 10 n) = n := by
  rw [digitsValue_eq, Nat.ofDigitChars_toDigits (by decide) (by decide)]

/-- Only zero begins with a zero. -/
lemma head?_toDigits_ne {n : Nat} (h : 0 < n) : (Nat.toDigits 10 n).head? ≠ some '0' := by
  induction n using Nat.strongRecOn with
  | ind n ih =>
    by_cases hlt : n < 10
    · have hdigits : ∀ m < 10, 0 < m → Nat.digitChar m ≠ '0' := by decide
      rw [Nat.toDigits_of_lt_base hlt]
      simpa using hdigits n hlt h
    · rw [Nat.toDigits_of_base_le (by decide) (by omega),
        List.head?_append_of_ne_nil _ Nat.toDigits_ne_nil]
      exact ih (n / 10) (by omega) (by omega)

/-- A 64-bit number is read back from its digits. -/
theorem readCount?_toDigits {n : Nat} (h : n < 2 ^ 64) :
    readCount? (Nat.toDigits 10 n) = some n := by
  have hdigits : ∀ c ∈ Nat.toDigits 10 n, isDecimalDigit c = true := fun c hc =>
    isDecimalDigit_of_mem_toDigits hc
  have hread : readDigits? (Nat.toDigits 10 n) = some n := by
    rw [readDigits?, if_neg (by simpa using hdigits), digitsValue_toDigits]
  have hplus (digits : List Char) : Nat.toDigits 10 n ≠ '+' :: digits := fun heq => by
    rw [heq] at hdigits
    exact absurd (hdigits '+' List.mem_cons_self) (by decide)
  rw [readCount?, readBelow?]
  · simpa [hread] using h
  · exact hplus

lemma isWhiteSpace_of_isDecimalDigit {c : Char} (h : isDecimalDigit c = true) :
    isWhiteSpace c = false := by
  have hdigits : ∀ n < 58, 48 ≤ n → isWhiteSpace (Char.ofNat n) = false := by decide
  simp only [isDecimalDigit, Bool.and_eq_true, decide_eq_true_eq, Char.le_def,
    UInt32.le_iff_toNat_le] at h
  rw [← Char.ofNat_toNat c]
  exact hdigits c.toNat (Nat.lt_succ_of_le h.2) h.1

lemma isWhiteSpace_of_mem_toDigits {n : Nat} {c : Char} (h : c ∈ Nat.toDigits 10 n) :
    isWhiteSpace c = false :=
  isWhiteSpace_of_isDecimalDigit (isDecimalDigit_of_mem_toDigits h)

end InlineValues
