import StagePlay.Number.Layout
import StagePlay.Number.Numeral

/-!
# The digits of a number

The decimal digits of a whole number are read as that number again (`digitsValue_digitChars`), and
they begin with a zero only if there are no others (`head?_digitChars`).
-/

namespace StagePlay.Number

theorem isDigit_eq (c : Char) : isDigit c = c.isDigit := rfl

theorem isDigit_of_mem_digitChars {n : Nat} {c : Char} (hc : c ∈ digitChars n) :
    isDigit c = true :=
  Nat.isDigit_of_mem_toDigits (by decide) (by decide) hc

theorem digitChars_ne_nil (n : Nat) : digitChars n ≠ [] := Nat.toDigits_ne_nil

/-- **The digits of a number** stand for it, read from the first one on. -/
theorem digitsValue_digitChars (n : Nat) : digitsValue (digitChars n) = n := by
  have hvalue : digitsValue (digitChars n) = Nat.ofDigitChars 10 (Nat.toDigits 10 n) 0 :=
    Nat.ofDigitChars_eq_foldl.symm
  rw [hvalue, Nat.ofDigitChars_ten_toDigits]

/-- **No number but zero** begins with a zero. By induction on the number of tens, whose digits are
all but the last one. -/
theorem head?_digitChars {n : Nat} (hn : 0 < n) : (digitChars n).head? ≠ some '0' := by
  induction n using Nat.strongRecOn with
  | ind n ih =>
    have hdigit : ∀ d < 10, 0 < d → Nat.digitChar d ≠ '0' := by decide
    unfold digitChars
    by_cases hlt : n < 10
    · rw [Nat.toDigits_of_lt_base hlt]
      exact fun h => hdigit n hlt hn (Option.some.inj h)
    · -- the first digit is that of the tens
      rw [Nat.toDigits_of_base_le (by decide) (Nat.not_lt.mp hlt)]
      have htens := ih (n / 10) (by omega) (by omega)
      obtain ⟨d, ds, hds⟩ := List.exists_cons_of_ne_nil (digitChars_ne_nil (n / 10))
      rw [hds] at htens
      rw [show Nat.toDigits 10 (n / 10) = d :: ds from hds]
      exact htens

/-- Digits begin with no sign. -/
theorem splitSign_digits {ds : List Char} (hds : ∀ c ∈ ds, isDigit c = true) :
    splitSign ds = (false, ds) := by
  unfold splitSign
  split
  · exact absurd (hds '-' List.mem_cons_self) (by decide)
  · exact absurd (hds '+' List.mem_cons_self) (by decide)
  · rfl

end StagePlay.Number
