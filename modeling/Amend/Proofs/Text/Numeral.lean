import Amend.Text.Hex
import Mathlib.Tactic.Common

/-!
# Numerals

What a number written in decimal or hexadecimal digits looks like.  The digits of a number are read
back by the fold over their values, and only zero has a leading zero.
-/

namespace Amend.Text

/-- Whether a character is one of the digits 0 to 9. -/
def IsDigit (c : Char) : Prop := ('0' ≤ c && c ≤ '9') = true

instance (c : Char) : Decidable (IsDigit c) := inferInstanceAs (Decidable (_ = true))

/-! ## Decimal digits -/

theorem isDigit_iff (c : Char) : IsDigit c ↔ c.isDigit = true := by
  simp only [IsDigit, Char.isDigit, Bool.and_eq_true, decide_eq_true_eq]
  exact Iff.rfl

/-- What can be seen of the ten digits holds of every digit. -/
theorem IsDigit.induction {P : Char → Prop} (hall : ∀ n < 58, 48 ≤ n → P (Char.ofNat n)) {c : Char}
    (h : IsDigit c) : P c := by
  simp only [IsDigit, Bool.and_eq_true, decide_eq_true_eq] at h
  have hlow : 48 ≤ c.toNat := h.1
  have hhigh : c.toNat ≤ 57 := h.2
  have hdigit := hall c.toNat (by omega) hlow
  rwa [Char.ofNat_toNat] at hdigit

theorem isDigit_of_mem_toDigits {n : Nat} {c : Char} (h : c ∈ Nat.toDigits 10 n) : IsDigit c :=
  (isDigit_iff c).mpr (Nat.isDigit_of_mem_toDigits (by decide) (by decide) h)

theorem digitChar_ne_zero : ∀ d < 10, d ≠ 0 → Nat.digitChar d ≠ '0' := by decide

/-- A number other than zero has no leading zero. -/
theorem head?_toDigits {n : Nat} (h : n ≠ 0) : (Nat.toDigits 10 n).head? ≠ some '0' := by
  induction n using Nat.strongRecOn with
  | ind n ih =>
    rcases Nat.lt_or_ge n 10 with hlt | hge
    · rw [Nat.toDigits_of_lt_base hlt, List.head?_cons]
      exact fun heq => digitChar_ne_zero n hlt h (Option.some.inj heq)
    · rw [Nat.toDigits_of_base_le (by decide) hge, List.head?_append,
        List.head?_eq_some_head Nat.toDigits_ne_nil, Option.some_or, ← List.head?_eq_some_head]
      exact ih (n / 10) (by omega) (by omega)

/-- The digits of a number give it back. -/
theorem foldl_toDigits (n : Nat) :
    (Nat.toDigits 10 n).foldl (fun m c => 10 * m + (c.toNat - 48)) 0 = n :=
  Nat.ofDigitChars_ten_toDigits

/-- Different numbers are written differently. -/
theorem toString_injective {m n : Nat} (h : toString m = toString n) : m = n := by
  have hdigits : Nat.toDigits 10 m = Nat.toDigits 10 n := String.ofList_injective h
  rw [← foldl_toDigits m, hdigits, foldl_toDigits]

/-- Leading zeros do not count. -/
theorem foldl_replicate_zero (k : Nat) (cs : List Char) :
    (List.replicate k '0' ++ cs).foldl (fun m c => 10 * m + (c.toNat - 48)) 0 =
      cs.foldl (fun m c => 10 * m + (c.toNat - 48)) 0 := by
  rw [List.foldl_append]
  congr 1
  exact (Nat.ofDigitChars_replicate_zero (b := 10)).trans (Nat.mul_zero _)

/-! ## Hexadecimal digits -/

theorem hexValue?_hexDigit : ∀ n < 16, hexValue? (hexDigit n) = some n := by decide

end Amend.Text
