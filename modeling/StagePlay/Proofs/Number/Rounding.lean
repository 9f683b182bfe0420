import StagePlay.Proofs.Number.Value

/-!
# Rounding to the nearest float

Floats are computed with by taking the exact result and rounding it. Rounding looks at the digits
that do not fit: the first of them, and whether there are others. Here it is shown that what comes of
it is `Nearest`: no number that a float could stand for is nearer to the exact result. All that is
used of rounding elsewhere follows from that: it keeps to either side of a float
(`Nearest.le`, `Nearest.ge`), and it keeps the order (`Nearest.mono`).

* `Representable` — the numbers that floats can stand for, but for the largest of them;
* `rounded_roundWithAccuracy` — rounding an unpacked float gives the nearest one;
* `rounded_add`, `rounded_sub`, `rounded_mul`, `rounded_div` — the operations.
-/

namespace StagePlay.Number

open Float.Model Float.Model.UnpackedFloat

/-! ### Numbers that can be represented -/

/-- **A number that a float can stand for**, were there no largest float: 53 digits at most, and the
last of them not beyond the least place. -/
def Representable (v : ℚ) : Prop := ∃ n k : ℤ, |n| < 2 ^ 53 ∧ -1074 ≤ k ∧ v = n * 2 ^ k

theorem Representable.neg {v : ℚ} (h : Representable v) : Representable (-v) := by
  obtain ⟨n, k, hn, hk, rfl⟩ := h
  exact ⟨-n, k, by rwa [abs_neg], hk, by push_cast; ring⟩

theorem representable_intCast {n : ℤ} (hn : |n| < 2 ^ 53) : Representable n :=
  ⟨n, 0, hn, by decide, by rw [zpow_zero, mul_one]⟩

theorem representable_natCast {n : ℕ} (hn : n < 2 ^ 53) : Representable n := by
  have hint : |(n : ℤ)| < 2 ^ 53 := by
    rw [abs_of_nonneg (Int.natCast_nonneg n)]
    exact_mod_cast hn
  exact_mod_cast representable_intCast hint

theorem representable_two_zpow {k : ℤ} (hk : -1074 ≤ k) : Representable (2 ^ k) :=
  ⟨1, k, by norm_num, hk, by push_cast; ring⟩

/-- The value of a canonical float can be represented: its mantissa and its exponent show how. -/
theorem representable_unpackedValue {u : UnpackedFloat} (h : Canonical u) :
    Representable (unpackedValue u) := by
  cases h with
  | zero s => exact ⟨0, 0, by norm_num, by decide, by push_cast; exact (zero_mul _).symm⟩
  | @finite s m e hm below least full =>
    refine ⟨s.apply m, e, ?_, least, rfl⟩
    have hm' : |(m : ℤ)| < 2 ^ 53 := by
      rw [abs_of_nonneg (Int.natCast_nonneg m)]
      exact_mod_cast below
    cases s with
    | positive => exact hm'
    | negative =>
      show |-(m : ℤ)| < 2 ^ 53
      rwa [abs_neg]

/-- The value of a finite float can be represented. -/
theorem representable_value {x : Float} (h : isFinite x = true) : Representable (value x) :=
  representable_unpackedValue (canonical_unpack h)

/-- **Floats are spaced** by powers of two: what is not a multiple of `2 ^ e` is below `2 ^ (e + 52)`.
-/
theorem Representable.spaced {v : ℚ} (h : Representable v) (e : ℤ) :
    (∃ n : ℤ, v = n * 2 ^ e) ∨ |v| < 2 ^ 52 * 2 ^ e := by
  obtain ⟨n, k, hn, -, rfl⟩ := h
  rcases le_or_gt e k with hle | hlt
  · left
    refine ⟨n * 2 ^ (k - e).toNat, ?_⟩
    have hk : k = (k - e).toNat + e := by omega
    conv_lhs => rw [hk, zpow_add₀ (by norm_num), zpow_natCast]
    push_cast
    ring
  · right
    have hn' : |(n : ℚ)| < 2 ^ 53 := by exact_mod_cast hn
    calc |(n : ℚ) * 2 ^ k| = |(n : ℚ)| * 2 ^ k := by rw [abs_mul, abs_of_pos (two_zpow_pos k)]
      _ < 2 ^ 53 * 2 ^ k := mul_lt_mul_of_pos_right hn' (two_zpow_pos k)
      _ ≤ 2 ^ 53 * 2 ^ (e - 1) :=
          mul_le_mul_of_nonneg_left (zpow_le_zpow_right₀ (by norm_num) (by omega)) (by norm_num)
      _ = 2 ^ 52 * 2 ^ e := by
          rw [zpow_sub₀ (by norm_num), zpow_one]
          ring

/-! ### The nearest one -/

/-- **`x` is nearest to `v`** among the numbers that can be represented. Half-way between two of
them, both are; which of these it is does not matter here. -/
def Nearest (v x : ℚ) : Prop := ∀ y, Representable y → |x - v| ≤ |y - v|

namespace Nearest

variable {v w x y : ℚ}

theorem neg (h : Nearest v x) : Nearest (-v) (-x) := by
  intro y hy
  have hmirror := h (-y) hy.neg
  rw [← abs_neg (x - v), ← abs_neg (-y - v)] at hmirror
  have hleft : -x - -v = -(x - v) := by ring
  have hright : y - -v = -(-y - v) := by ring
  rwa [hleft, hright]

/-- **What is below a float is rounded to nothing above it**, since that float itself would be
nearer. -/
theorem le (h : Nearest v x) (hy : Representable y) (hv : v ≤ y) : x ≤ y := by
  by_contra hlt
  have hnear := h y hy
  rw [abs_of_nonneg (by linarith), abs_of_nonneg (by linarith)] at hnear
  linarith

/-- What is above a float is rounded to nothing below it. -/
theorem ge (h : Nearest v x) (hy : Representable y) (hv : y ≤ v) : y ≤ x := by
  by_contra hlt
  have hnear := h y hy
  rw [abs_of_nonpos (by linarith), abs_of_nonpos (by linarith)] at hnear
  linarith

/-- What is not beyond a float in size is not rounded beyond it. -/
theorem within (h : Nearest v x) (hy : Representable y) (hv : |v| ≤ y) : |x| ≤ y :=
  abs_le.mpr ⟨h.ge hy.neg (abs_le.mp hv).1, h.le hy (abs_le.mp hv).2⟩

/-- A number that can be represented is left as it is. -/
theorem eq (h : Nearest v x) (hv : Representable v) : x = v :=
  le_antisymm (h.le hv le_rfl) (h.ge hv le_rfl)

/-- **Rounding keeps the order**, of two different numbers. Were the results the other way round,
one of the two numbers would be nearer to the other result. -/
theorem mono (hx : Nearest v x) (hy : Nearest w y) (hx' : Representable x) (hy' : Representable y)
    (h : v < w) : x ≤ y := by
  by_contra hlt
  rw [not_le] at hlt
  -- each of the two is at least as near to its own number as the other one
  have hfirst := hx y hy'
  have hsecond := hy x hx'
  rw [← sq_le_sq] at hfirst hsecond
  nlinarith

/-- **A rounded multiple** of a power of two is nearest, if all that is not such a multiple is farther
away. -/
theorem of_multiple {r : Nat} {q : ℚ} {e : ℤ} (hr : |(r : ℚ) - q| ≤ 1 / 2)
    (hfull : e = -1074 ∨ 2 ^ 52 ≤ q) : Nearest (q * 2 ^ e) (r * 2 ^ e) := by
  have hpos := two_zpow_pos e
  -- no multiple is nearer than the one that was rounded to
  have hmultiple : ∀ n : ℤ, |(r : ℚ) * 2 ^ e - q * 2 ^ e| ≤ |n * 2 ^ e - q * 2 ^ e| := by
    intro n
    rw [← sub_mul, ← sub_mul, abs_mul, abs_mul]
    refine mul_le_mul_of_nonneg_right ?_ (abs_nonneg _)
    rcases eq_or_ne n r with rfl | hne
    · exact le_of_eq (by norm_num)
    · have hgap : (1 : ℚ) ≤ |(n : ℚ) - r| := by exact_mod_cast Int.one_le_abs (sub_ne_zero.mpr hne)
      have htriangle := abs_sub_le (n : ℚ) q r
      rw [abs_sub_comm q] at htriangle
      linarith
  intro y hy
  rcases hy.spaced e with ⟨n, rfl⟩ | hsmall
  · exact hmultiple n
  -- what is no multiple of the power
  · rcases hfull with hleast | hfull
    · -- with the least exponent there is nothing in between
      obtain ⟨n, k, -, hk, rfl⟩ := hy
      have hint : (n : ℚ) * 2 ^ k = (n * 2 ^ (k - e).toNat : ℤ) * 2 ^ e := by
        have hsum : k = (k - e).toNat + e := by omega
        conv_lhs => rw [hsum, zpow_add₀ (by norm_num), zpow_natCast]
        push_cast
        ring
      rw [hint]
      exact hmultiple _
    · -- anything else is below the least multiple with so many digits
      have hedge := hmultiple (2 ^ 52)
      push_cast at hedge
      have hlow : (2 : ℚ) ^ 52 * 2 ^ e ≤ q * 2 ^ e := mul_le_mul_of_nonneg_right hfull hpos.le
      refine hedge.trans ?_
      rw [abs_of_nonpos (by linarith), abs_of_nonpos (by linarith [(abs_lt.mp hsmall).2])]
      linarith [(abs_lt.mp hsmall).2]

end Nearest

/-! ### Digits that do not fit -/

/-- **What a mantissa stands for** together with the digits that were dropped: the first of them,
and whether there are others. With the two it is known on which side of the half the number is, and
that is all that rounding needs. -/
def Stands (em : ExtendedMantissa) (v : ℚ) : Prop :=
  match em.roundBit, em.stickyBit with
  | false, false => v = em.mantissa
  | false, true => (em.mantissa : ℚ) < v ∧ v < em.mantissa + 1 / 2
  | true, false => v = em.mantissa + 1 / 2
  | true, true => (em.mantissa : ℚ) + 1 / 2 < v ∧ v < em.mantissa + 1

/-- The mantissa is what was not dropped. -/
theorem Stands.mantissa_le {em : ExtendedMantissa} {v : ℚ} (h : Stands em v) : em.mantissa ≤ v := by
  obtain ⟨m, r, s⟩ := em
  cases r <;> cases s <;> simp only [Stands] at h ⊢ <;> linarith [h]

/-- **One more digit is dropped.** It becomes the first of the dropped ones, and what was the first
joins the others. -/
theorem Stands.shiftRightOne {em : ExtendedMantissa} {v : ℚ} (h : Stands em v) :
    Stands em.shiftRightOne (v / 2) := by
  obtain ⟨m, r, s⟩ := em
  -- by the digit that is dropped, and then by what was dropped before it
  rcases Nat.even_or_odd' m with ⟨q, rfl | rfl⟩
  · have hhalf : 2 * q / 2 = q := by omega
    have hdigit : (2 * q % 2 != 0) = false := by rw [Nat.mul_mod_right]; rfl
    cases r <;> cases s <;>
      simp only [Stands, ExtendedMantissa.shiftRightOne, hhalf, hdigit, Bool.or_self, Bool.or_true,
        Bool.or_false] at h ⊢ <;> push_cast at h
    · linarith
    · exact ⟨by linarith [h.1], by linarith [h.2]⟩
    · exact ⟨by linarith, by linarith⟩
    · exact ⟨by linarith [h.1], by linarith [h.2]⟩
  · have hhalf : (2 * q + 1) / 2 = q := by omega
    have hdigit : ((2 * q + 1) % 2 != 0) = true := by rw [Nat.mul_add_mod]; rfl
    cases r <;> cases s <;>
      simp only [Stands, ExtendedMantissa.shiftRightOne, hhalf, hdigit, Bool.or_self, Bool.or_true,
        Bool.or_false] at h ⊢ <;> push_cast at h
    · linarith
    · exact ⟨by linarith [h.1], by linarith [h.2]⟩
    · exact ⟨by linarith, by linarith⟩
    · exact ⟨by linarith [h.1], by linarith [h.2]⟩

theorem Stands.shiftRight {em : ExtendedMantissa} {v : ℚ} (h : Stands em v) (k : Nat) :
    Stands (em >>> k) (v / 2 ^ k) := by
  induction k with
  | zero =>
    rw [pow_zero, div_one]
    exact h
  | succ k ih =>
    rw [pow_succ, ← div_div]
    exact ih.shiftRightOne

/-- **The rounded mantissa** is a whole number nearest to what was there. There are four cases of
what was dropped, and only half-way the last digit decides. -/
theorem Stands.roundedMantissa {em : ExtendedMantissa} {v : ℚ} (h : Stands em v) :
    |(em.roundedMantissa : ℚ) - v| ≤ 1 / 2 := by
  obtain ⟨m, r, s⟩ := em
  rw [abs_le]
  cases r <;> cases s <;>
    simp only [Stands, ExtendedMantissa.roundedMantissa, ExtendedMantissa.accuracy,
      Accuracy.roundToNearestEven] at h ⊢
  · constructor <;> linarith
  · constructor <;> linarith
  · -- half-way, whichever neighbour is even
    rcases Nat.mod_two_eq_zero_or_one m with hm | hm <;> rw [hm] <;> push_cast <;>
      constructor <;> linarith
  · push_cast
    constructor <;> linarith

theorem stands_ofMantissa (m : Nat) : Stands (.ofMantissaAndAccuracy m .exact) m := rfl

/-- **What is left of a division stands for the fraction**: whether the rest is nothing, or less
than half of the divisor, or half, or more. -/
theorem stands_fraction {m n : Nat} (hn : 0 < n) :
    Stands (.ofMantissaAndAccuracy (m / n) (accuracyOfFraction (m % n) n)) ((m : ℚ) / n) := by
  have hn' : (0 : ℚ) < n := by exact_mod_cast hn
  have hdiv : (m : ℚ) = n * (m / n : ℕ) + (m % n : ℕ) := by exact_mod_cast (Nat.div_add_mod m n).symm
  have hrest : ((m % n : ℕ) : ℚ) < n := by exact_mod_cast Nat.mod_lt m hn
  have hvalue : (m : ℚ) / n = (m / n : ℕ) + (m % n : ℕ) / n := by
    rw [div_eq_iff hn'.ne', add_mul, div_mul_cancel₀ _ hn'.ne', mul_comm]
    exact hdiv
  unfold accuracyOfFraction
  by_cases hzero : m % n = 0
  · rw [if_pos hzero]
    show (m : ℚ) / n = (m / n : ℕ)
    rw [hvalue, hzero, Nat.cast_zero, zero_div, add_zero]
  · rw [if_neg hzero]
    have hpos : (0 : ℚ) < (m % n : ℕ) := by exact_mod_cast Nat.pos_of_ne_zero hzero
    -- what is left over is compared with one half
    rcases lt_trichotomy (2 * (m % n)) n with h | h | h
    · rw [Nat.compare_eq_lt.mpr h]
      have h' : 2 * ((m % n : ℕ) : ℚ) < n := by exact_mod_cast h
      refine ⟨?_, ?_⟩ <;> rw [hvalue]
      · exact lt_add_of_pos_right _ (div_pos hpos hn')
      · refine add_lt_add_right ((div_lt_iff₀ hn').mpr ?_) _
        linarith
    · rw [Nat.compare_eq_eq.mpr h]
      have h' : 2 * ((m % n : ℕ) : ℚ) = n := by exact_mod_cast h
      show (m : ℚ) / n = (m / n : ℕ) + 1 / 2
      rw [hvalue, add_right_inj, div_eq_div_iff hn'.ne' two_ne_zero]
      linarith
    · rw [Nat.compare_eq_gt.mpr h]
      have h' : (n : ℚ) < 2 * ((m % n : ℕ) : ℚ) := by exact_mod_cast h
      refine ⟨?_, ?_⟩ <;> rw [hvalue]
      · refine add_lt_add_right ((lt_div_iff₀ hn').mpr ?_) _
        linarith
      · exact add_lt_add_right ((div_lt_one hn').mpr hrest) _

/-! ### Rounding an unpacked float -/

/-- **`u` is `v` rounded**: it is canonical, and nearest. Its exponent may be too large for the
format, which is seen only when it is packed. -/
structure Rounded (v : ℚ) (u : UnpackedFloat) : Prop where
  canonical : Canonical u
  nearest : Nearest v (unpackedValue u)

/-- A mantissa that fits is not shifted. -/
theorem shiftToTarget_fits {m : Nat} {e : Int} (hm : m < 2 ^ 53) (he : -1074 ≤ e) :
    shiftToTargetExponent Format.binary64 m e .exact = (⟨m, false, false⟩, e) := by
  have hlog : m.log2 ≤ 52 := by
    rcases Nat.eq_zero_or_pos m with rfl | hpos
    · decide
    · exact Nat.lt_succ_iff.mp ((Nat.log2_lt (Nat.ne_of_gt hpos)).mpr hm)
  have hstay : (Format.binary64.targetExponent (totalExponent m e) - e).toNat = 0 := by
    rw [targetExponent_eq]
    omega
  unfold shiftToTargetExponent shiftToExponent
  dsimp only
  rw [hstay]
  exact Prod.ext rfl (add_zero e)

/-- A carry to one digit more is shifted back, and leaves the same number. -/
theorem shiftToTarget_carry {e : Int} (he : -1074 ≤ e) :
    shiftToTargetExponent Format.binary64 (2 ^ 53) e .exact = (⟨2 ^ 52, false, false⟩, e + 1) := by
  have hone : (Format.binary64.targetExponent (totalExponent (2 ^ 53) e) - e).toNat = 1 := by
    rw [targetExponent_eq, Nat.log2_two_pow]
    omega
  unfold shiftToTargetExponent shiftToExponent
  dsimp only
  rw [hone]
  rfl

/-- **What the two shifts make of a mantissa that was rounded.** The first shift is where digits are
dropped; the second one only takes back a carry. -/
theorem rounded_of_nearest {v : ℚ} {r : Nat} {e : Int} {accuracy : Accuracy} {m : Nat} {t : Int}
    (hfirst : (shiftToTargetExponent Format.binary64 m e accuracy).1.roundedMantissa = r)
    (hexponent : (shiftToTargetExponent Format.binary64 m e accuracy).2 = t) (hr : r ≤ 2 ^ 53)
    (hleast : -1074 ≤ t) (hfull : 2 ^ 52 ≤ r ∨ t = -1074) (hnear : Nearest v (r * 2 ^ t)) :
    Rounded v (roundWithAccuracy Format.binary64 .positive m e accuracy) := by
  unfold roundWithAccuracy
  dsimp only
  rw [hfirst, hexponent]
  rcases hr.eq_or_lt with rfl | hlt
  · -- the carry
    rw [shiftToTarget_carry hleast]
    dsimp only
    rw [dif_neg (by decide)]
    refine ⟨.finite (by decide) (by omega) (.inl le_rfl), ?_⟩
    rw [unpackedValue_positive]
    have hsame : ((2 ^ 52 : ℕ) : ℚ) * 2 ^ (t + 1) = (2 ^ 53 : ℕ) * 2 ^ t := by
      rw [zpow_add₀ two_ne_zero, zpow_one]
      push_cast
      ring
    rwa [hsame]
  · rw [shiftToTarget_fits hlt hleast]
    dsimp only
    by_cases hzero : r = 0
    · rw [dif_pos hzero]
      refine ⟨.zero _, ?_⟩
      rw [hzero, Nat.cast_zero, zero_mul] at hnear
      exact hnear
    · rw [dif_neg hzero]
      refine ⟨.finite hlt hleast hfull, ?_⟩
      rwa [unpackedValue_positive]

/-- **Rounding gives the nearest float**, where it begins with digits enough. The mantissa with the
digits that were dropped stands for the exact result, divided by the power of two that the shift
went over; the whole number nearest to that is what is left. -/
theorem rounded_roundWithAccuracy {m : Nat} {e : Int} {accuracy : Accuracy} {v : ℚ}
    (hv : Stands (.ofMantissaAndAccuracy m accuracy) v)
    (he : e ≤ Format.binary64.targetExponent (totalExponent m e)) :
    Rounded (v * 2 ^ e) (roundWithAccuracy Format.binary64 .positive m e accuracy) := by
  obtain ⟨k, hk⟩ : ∃ k, (Format.binary64.targetExponent (totalExponent m e) - e).toNat = k := ⟨_, rfl⟩
  have htarget := targetExponent_eq m e
  have hstands := hv.shiftRight k
  have hmantissa : (ExtendedMantissa.ofMantissaAndAccuracy m accuracy >>> k).mantissa = m / 2 ^ k := by
    rw [shiftRight_mantissa, ofMantissaAndAccuracy_mantissa]
  have hshift : shiftToTargetExponent Format.binary64 m e accuracy =
      (ExtendedMantissa.ofMantissaAndAccuracy m accuracy >>> k, e + k) := by
    unfold shiftToTargetExponent shiftToExponent
    dsimp only
    rw [hk]
  have hvalue : v / 2 ^ k * 2 ^ (e + k) = v * 2 ^ e := by
    rw [zpow_add₀ two_ne_zero, zpow_natCast, mul_comm (2 ^ e : ℚ), ← mul_assoc,
      div_mul_cancel₀ _ (pow_ne_zero k two_ne_zero)]
  have hnear := hstands.roundedMantissa
  -- 53 digits are left at most, and as many if the exponent is not the least one
  have hmost : m / 2 ^ k < 2 ^ 53 := by
    rw [Nat.div_lt_iff_lt_mul (Nat.two_pow_pos k), ← Nat.pow_add]
    exact Nat.lt_log2_self.trans_le (Nat.pow_le_pow_right (by decide) (by omega))
  have hfull : e + k = -1074 ∨ 2 ^ 52 ≤ m / 2 ^ k := by
    by_cases hleast : e + k = -1074
    · exact .inl hleast
    · right
      have hm : m ≠ 0 := fun hzero => by
        subst hzero
        rw [Nat.log2_zero] at htarget
        omega
      rw [Nat.le_div_iff_mul_le (Nat.two_pow_pos k), ← Nat.pow_add]
      exact (Nat.pow_le_pow_right (by decide) (by omega)).trans (Nat.log2_self_le hm)
  have hrounded := roundedMantissa_le (ExtendedMantissa.ofMantissaAndAccuracy m accuracy >>> k)
  have hrounded' := le_roundedMantissa (ExtendedMantissa.ofMantissaAndAccuracy m accuracy >>> k)
  rw [← hvalue]
  have hfirst : (shiftToTargetExponent Format.binary64 m e accuracy).1.roundedMantissa =
      (ExtendedMantissa.ofMantissaAndAccuracy m accuracy >>> k).roundedMantissa := by rw [hshift]
  have hsecond : (shiftToTargetExponent Format.binary64 m e accuracy).2 = e + k := by rw [hshift]
  refine rounded_of_nearest hfirst hsecond (by omega) (by omega) ?_ ?_
  · omega
  · refine .of_multiple hnear (hfull.imp_right fun h => ?_)
    have hlow := hstands.mantissa_le
    rw [hmantissa] at hlow
    exact (by exact_mod_cast h : (2 : ℚ) ^ 52 ≤ (m / 2 ^ k : ℕ)).trans hlow

/-! ### Signs -/

/-- A sign is a factor of one or minus one. -/
theorem apply_natCast (s : Sign) (n : Nat) : ((s.apply n : ℤ) : ℚ) = s.apply 1 * n := by
  cases s with
  | positive => exact (one_mul _).symm
  | negative =>
    show ((-(n : ℤ) : ℤ) : ℚ) = ((-1 : ℤ) : ℚ) * n
    push_cast
    ring

theorem sign_mul (s t : Sign) : (((s * t).apply 1 : ℤ) : ℚ) = s.apply 1 * t.apply 1 := by
  rw [← Int.cast_mul]
  cases s <;> cases t <;> rfl

theorem sign_div (s t : Sign) : (((s / t).apply 1 : ℤ) : ℚ) = s.apply 1 / t.apply 1 := by
  have hdiv : s / t = s * t := by cases s <;> cases t <;> rfl
  have hinv : ((t.apply 1 : ℤ) : ℚ)⁻¹ = t.apply 1 := by
    cases t with
    | positive => exact inv_one
    | negative => exact inv_neg_one
  rw [hdiv, sign_mul, div_eq_mul_inv, hinv]

/-- A sign is put in front of the magnitude. -/
theorem unpackedValue_finite {s : Sign} {m : Nat} {e : Int} (hm : 0 < m) :
    unpackedValue (.finite s m e hm) = s.apply 1 * (m * 2 ^ e) := by
  show (s.apply m : ℚ) * 2 ^ e = _
  rw [apply_natCast, mul_assoc]

theorem Canonical.neg {u : UnpackedFloat} (h : Canonical u) : Canonical u.neg := by
  cases h with
  | zero s => exact .zero _
  | finite below least full => exact .finite below least full

theorem unpackedValue_neg (u : UnpackedFloat) : unpackedValue u.neg = -unpackedValue u := by
  cases u with
  | finite s m e hm =>
    show unpackedValue (.finite (-s) m e hm) = _
    cases s with
    | positive => exact unpackedValue_negative hm
    | negative => rw [unpackedValue_negative, neg_neg]; rfl
  | infinity | notANumber | zero => exact neg_zero.symm

theorem Rounded.neg {v : ℚ} {u : UnpackedFloat} (h : Rounded v u) : Rounded (-v) u.neg where
  canonical := h.canonical.neg
  nearest := by
    rw [unpackedValue_neg]
    exact h.nearest.neg

/-- A canonical float is its own value rounded. -/
theorem Canonical.rounded {u : UnpackedFloat} (h : Canonical u) : Rounded (unpackedValue u) u where
  canonical := h
  nearest := fun y _ => by
    rw [sub_self, abs_zero]
    exact abs_nonneg _

/-- To round with the negative sign is to round and change the sign. -/
theorem roundWithAccuracy_neg (m : Nat) (e : Int) (accuracy : Accuracy) :
    roundWithAccuracy Format.binary64 .negative m e accuracy =
      (roundWithAccuracy Format.binary64 .positive m e accuracy).neg := by
  unfold roundWithAccuracy
  dsimp only
  generalize shiftToTargetExponent Format.binary64 _ _ .exact = shifted
  obtain ⟨mantissa, exponent⟩ := shifted
  by_cases hzero : mantissa.mantissa = 0
  · rw [dif_pos hzero, dif_pos hzero]
    rfl
  · rw [dif_neg hzero, dif_neg hzero]
    rfl

/-- **Rounding with a sign.** Half-way cases go to the even neighbour on both sides of zero, so both
signs are alike. -/
theorem rounded_signed (s : Sign) {m : Nat} {e : Int} {accuracy : Accuracy} {v : ℚ}
    (hv : Stands (.ofMantissaAndAccuracy m accuracy) v)
    (he : e ≤ Format.binary64.targetExponent (totalExponent m e)) :
    Rounded (s.apply 1 * (v * 2 ^ e)) (roundWithAccuracy Format.binary64 s m e accuracy) := by
  have hrounded := rounded_roundWithAccuracy hv he
  cases s with
  | positive =>
    show Rounded ((1 : ℤ) * _) _
    rwa [Int.cast_one, one_mul]
  | negative =>
    show Rounded ((-1 : ℤ) * _) _
    rw [roundWithAccuracy_neg, Int.cast_neg, Int.cast_one, neg_one_mul]
    exact hrounded.neg

/-! ### Operations on unpacked floats -/

/-- Zeros behind the digits and a smaller exponent make the same number. -/
theorem shiftLeft_value (m k : Nat) (e : Int) : ((m <<< k : Nat) : ℚ) * 2 ^ (e - k) = m * 2 ^ e := by
  have hsum : e = k + (e - k) := by omega
  conv_rhs => rw [hsum, zpow_add₀ two_ne_zero, zpow_natCast]
  rw [Nat.shiftLeft_eq]
  push_cast
  ring

/-- A float written with a smaller exponent, with so many zeros behind its digits. -/
theorem unpackedValue_aligned (s : Sign) {m : Nat} (hm : 0 < m) {e f : Int} (h : f ≤ e) :
    ((s.apply (m <<< (e - f).toNat : Nat) : ℤ) : ℚ) * 2 ^ f = unpackedValue (.finite s m e hm) := by
  have hexponent : f = e - (e - f).toNat := by omega
  rw [apply_natCast, unpackedValue_finite, ← shiftLeft_value m (e - f).toNat e, ← hexponent, mul_assoc]

/-- Numbers with fewer digits get zeros behind them before they are rounded, so nothing is dropped
of them. -/
theorem rounded_round (s : Sign) {m : Nat} (hm : 0 < m) (e : Int) :
    Rounded (s.apply 1 * (m * 2 ^ e)) (round Format.binary64 s m e) := by
  obtain ⟨k, hk⟩ : ∃ k, (e - Format.binary64.targetExponent (totalExponent m e)).toNat = k := ⟨_, rfl⟩
  have hlog := log2_shiftLeft hm k
  have htarget := targetExponent_eq m e
  have htarget' := targetExponent_eq (m <<< k) (e - k)
  have hround : round Format.binary64 s m e =
      roundWithAccuracy Format.binary64 s (m <<< k) (e - k) .exact := by
    unfold UnpackedFloat.round decreaseExponent
    dsimp only
    rw [hk]
  rw [hround, ← shiftLeft_value m k e]
  refine rounded_signed s (stands_ofMantissa _) ?_
  omega

/-- **A whole number of units, rounded**, with its sign taken off before. -/
theorem rounded_normalize (n : ℤ) (e : Int) (s : Sign) :
    Rounded (n * 2 ^ e) (UnpackedFloat.normalize Format.binary64 n e s) := by
  unfold UnpackedFloat.normalize
  split
  · next h =>
    have hneg : n < 0 := Int.compare_eq_lt.mp h
    have hround := rounded_round .negative (m := (-n).toNat) (by omega) e
    have hvalue : ((Sign.negative.apply 1 : ℤ) : ℚ) * (((-n).toNat : ℕ) * 2 ^ e) = n * 2 ^ e := by
      have hcast : (((-n).toNat : ℕ) : ℚ) = -n := by
        exact_mod_cast Int.toNat_of_nonneg (by omega : 0 ≤ -n)
      rw [hcast]
      show ((-1 : ℤ) : ℚ) * _ = _
      push_cast
      ring
    rwa [hvalue] at hround
  · next h =>
    obtain rfl : n = 0 := Int.compare_eq_eq.mp h
    rw [Int.cast_zero, zero_mul]
    exact (Canonical.zero s).rounded
  · next h =>
    have hpos : 0 < n := Int.compare_eq_gt.mp h
    have hround := rounded_round .positive (m := n.toNat) (by omega) e
    have hvalue : ((Sign.positive.apply 1 : ℤ) : ℚ) * ((n.toNat : ℕ) * 2 ^ e) = n * 2 ^ e := by
      have hcast : ((n.toNat : ℕ) : ℚ) = n := by exact_mod_cast Int.toNat_of_nonneg hpos.le
      rw [hcast]
      show ((1 : ℤ) : ℚ) * _ = _
      push_cast
      ring
    rwa [hvalue] at hround

section Operations

variable {u v : UnpackedFloat} (hu : Canonical u) (hv : Canonical v)

include hu hv

/-- **A sum** is rounded once. Both summands are written with the smaller of the two exponents, so
their sum is a whole number of units. -/
theorem rounded_add :
    Rounded (unpackedValue u + unpackedValue v) (UnpackedFloat.add Format.binary64 u v) := by
  have hzero : ∀ s, unpackedValue (.zero s) = 0 := fun _ => rfl
  cases hu with
  | zero s =>
    rw [hzero, zero_add]
    cases hv with
    | zero t =>
      rw [hzero]
      show Rounded 0 (if s == t then .zero s else .zero .positive)
      split <;> exact (Canonical.zero _).rounded
    | finite below least full => exact (Canonical.finite below least full).rounded
  | @finite s m e hm below least full =>
    cases hv with
    | zero t =>
      rw [hzero, add_zero]
      exact (Canonical.finite below least full).rounded
    | @finite t n f hn below' least' full' =>
      -- both are written with the smaller exponent
      rw [← unpackedValue_aligned s hm (min_le_left e f),
        ← unpackedValue_aligned t hn (min_le_right e f),
        ← add_mul, ← Int.cast_add]
      exact rounded_normalize _ (min e f) .positive

/-- **A difference** is rounded once, just like a sum. -/
theorem rounded_sub :
    Rounded (unpackedValue u - unpackedValue v) (UnpackedFloat.sub Format.binary64 u v) := by
  have hzero : ∀ s, unpackedValue (.zero s) = 0 := fun _ => rfl
  cases hu with
  | zero s =>
    cases hv with
    | zero t =>
      rw [hzero, hzero, sub_zero]
      show Rounded 0 (if s == -t then .zero s else .zero .positive)
      split <;> exact (Canonical.zero _).rounded
    | finite below least full =>
      rw [hzero, zero_sub]
      exact (Canonical.finite below least full).rounded.neg
  | @finite s m e hm below least full =>
    cases hv with
    | zero t =>
      rw [hzero, sub_zero]
      exact (Canonical.finite below least full).rounded
    | @finite t n f hn below' least' full' =>
      rw [← unpackedValue_aligned s hm (min_le_left e f),
        ← unpackedValue_aligned t hn (min_le_right e f),
        ← sub_mul, ← Int.cast_sub]
      exact rounded_normalize _ (min e f) .positive

/-- **A product** is rounded once, from the product of the mantissas, which is exact. -/
theorem rounded_mul :
    Rounded (unpackedValue u * unpackedValue v) (UnpackedFloat.mul Format.binary64 u v) := by
  cases hu with
  | zero s =>
    rw [show unpackedValue (.zero s) = 0 from rfl, zero_mul]
    cases hv <;> exact (Canonical.zero _).rounded
  | @finite s m e hm below least full =>
    cases hv with
    | zero t =>
      rw [show unpackedValue (.zero t) = 0 from rfl, mul_zero]
      exact (Canonical.zero _).rounded
    | @finite t n f hn below' least' full' =>
      have hlog := log2_mul_le hm hn
      have hfull : ∀ {k : Nat}, 2 ^ 52 ≤ k → 52 ≤ k.log2 := fun {k} h => (Nat.le_log2 (by omega)).mpr h
      -- one of the two has 53 digits, or both have the least exponent
      have hdigits : e + f ≤ Format.binary64.targetExponent (totalExponent (m * n) (e + f)) := by
        rw [targetExponent_eq]
        rcases full with h | h
        · have := hfull h
          omega
        · rcases full' with h' | h'
          · have := hfull h'
            omega
          · omega
      have hround := rounded_signed (s * t) (stands_ofMantissa (m * n)) hdigits
      have hvalue : ((s * t).apply 1 : ℚ) * ((m * n : ℕ) * 2 ^ (e + f)) =
          unpackedValue (.finite s m e hm) * unpackedValue (.finite t n f hn) := by
        rw [unpackedValue_finite, unpackedValue_finite, sign_mul, zpow_add₀ two_ne_zero]
        push_cast
        ring
      rw [hvalue] at hround
      exact hround

/-- **A quotient** is rounded once. Enough zeros are put behind the dividend for the quotient to
have all its digits, and of the rest it is only known whether it is half of the divisor. -/
theorem rounded_div (hne : unpackedValue v ≠ 0) :
    Rounded (unpackedValue u / unpackedValue v) (UnpackedFloat.div Format.binary64 u v) := by
  cases hv with
  | zero t => exact absurd rfl hne
  | @finite t n f hn below' least' full' =>
    cases hu with
    | zero s =>
      rw [show unpackedValue (.zero s) = 0 from rfl, zero_div]
      exact (Canonical.zero _).rounded
    | @finite s m e hm below least full =>
      obtain ⟨g, hg⟩ : ∃ g, min (e - f)
        (Format.binary64.targetExponent (totalExponent m e - totalExponent n f)) = g := ⟨_, rfl⟩
      obtain ⟨k, hk⟩ : ∃ k, (e - f - g).toNat = k := ⟨_, rfl⟩
      have hcore : divCore Format.binary64 m e n f =
          (m <<< k / n, g, accuracyOfFraction (m <<< k % n) n) := by
        unfold divCore
        dsimp only
        rw [hg, hk]
      -- the quotient has 53 digits, or the least exponent
      have hlog := log2_shiftLeft hm k
      have htarget : Format.binary64.targetExponent (totalExponent m e - totalExponent n f) =
          max ((m.log2 + 1 + e) - (n.log2 + 1 + f) - 53) (-1074) := rfl
      have hdigits : g ≤ Format.binary64.targetExponent (totalExponent (m <<< k / n) g) := by
        rw [targetExponent_eq]
        rcases lt_or_ge n.log2 (m <<< k).log2 with hlt | hge
        · have hquotient := log2_le_div hn hlt
          omega
        · omega
      have hround := rounded_signed (s / t) (stands_fraction (m := m <<< k) hn) hdigits
      have hvalue : ((s / t).apply 1 : ℚ) * ((m <<< k : ℕ) / n * 2 ^ g) =
          unpackedValue (.finite s m e hm) / unpackedValue (.finite t n f hn) := by
        have hexponent : g = e - k - f := by omega
        rw [unpackedValue_finite, unpackedValue_finite, sign_div, ← shiftLeft_value m k e, hexponent,
          zpow_sub₀ two_ne_zero _ f, div_mul_div_comm, div_mul_div_comm]
      rw [div_finite hm hn hcore, ← hvalue]
      exact hround

end Operations

end StagePlay.Number
