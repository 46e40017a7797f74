import Mathlib.Data.Nat.Digits.Defs

/-!
# Decimal numerals

* `Decimal.padded` — a numeral with leading zeros up to a width (`%06d`, `%d` at width 0).
* `Decimal.value` — what a run of digits denotes.
* `value_padded` — the round trip, so distinct numbers have distinct numerals.
-/

namespace Ultrav

namespace Decimal

/-- The numeral of `n` with leading zeros up to the width `w`. -/
def padded (w n : ℕ) : List Char :=
  List.replicate (w - (Nat.toDigits 10 n).length) '0' ++ Nat.toDigits 10 n

/-- The number a run of digits denotes. -/
def value (cs : List Char) : ℕ := Nat.ofDigitChars 10 cs 0

/-- **Round trip**: leading zeros do not change what is denoted. -/
@[simp] theorem value_padded (w n : ℕ) : value (padded w n) = n := by
  rw [value, padded, Nat.ofDigitChars_append, Nat.ofDigitChars_replicate_zero, Nat.mul_zero,
    Nat.ofDigitChars_ten_toDigits]

/-- A numeral determines its number. -/
theorem padded_injective (w : ℕ) : Function.Injective (padded w) := fun a b h => by
  rw [← value_padded w a, h, value_padded]

/-- A numeral is made of digits. -/
theorem isDigit_of_mem_padded {w n : ℕ} {c : Char} (h : c ∈ padded w n) : c.isDigit = true := by
  rcases List.mem_append.mp h with h | h
  · rw [List.eq_of_mem_replicate h]
    rfl
  · exact Nat.isDigit_of_mem_toDigits (by decide) (by decide) h

end Decimal

end Ultrav
