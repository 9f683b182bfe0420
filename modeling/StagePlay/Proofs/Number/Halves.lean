import Mathlib.Algebra.Order.Round
import Mathlib.Tactic.FieldSimp
import Mathlib.Tactic.LinearCombination
import StagePlay.Proofs.Number.Arithmetic

/-!
# Rounding by adding a half

A number is rounded to the nearest whole number, a half going up, by adding a half and taking the
floor. Where the sum is a float, it is rounded itself, and this may lead up to the whole number
above. It does so for a single float of modest size (`floor_add_half`): the one just below a half
(`belowHalf`), which comes to 1.

The floats next to a tie are as far apart as those next to the whole number above it, if both lie
between the same powers of two, and then what is below the tie stays below the whole number
(`Nearest.lt_next`, `Nearest.lt_neg`). Only the ties at a half and at minus a half are not like this.
-/

namespace StagePlay.Number

open Float.Model Float.Model.UnpackedFloat

/-! ### Exact floors -/

/-- The floor of a whole number times a power of two, as it is found by dividing whole numbers. One
of the two powers there is always one. -/
theorem fdiv_eq_floor (n e : ℤ) :
    Int.fdiv (n * 2 ^ e.toNat) ((2 ^ (-e).toNat : ℕ) : ℤ) = ⌊(n : ℚ) * 2 ^ e⌋ := by
  have hvalue : (n : ℚ) * 2 ^ e = ((n * 2 ^ e.toNat : ℤ) : ℚ) / ((2 ^ (-e).toNat : ℕ) : ℚ) := by
    rcases le_total 0 e with he | he
    · obtain ⟨d, rfl⟩ := Int.eq_ofNat_of_zero_le he
      simp
    · obtain ⟨d, rfl⟩ : ∃ d : ℕ, e = -d := ⟨(-e).toNat, by omega⟩
      simp [div_eq_mul_inv]
  rw [hvalue, Rat.floor_intCast_div_natCast, Int.fdiv_eq_ediv_of_nonneg _ (Int.natCast_nonneg _)]

/-- **The exact floor of a float** is that of its value. -/
theorem Exact.floor_ofFloat {x : Float} (hx : isFinite x = true) :
    (Exact.ofFloat x).floor = ⌊value x⌋ := by
  have hx' : x.toModel.unpack.isFinite = true := hx
  have hunpack : unpack Format.binary64 x.toBits.toBitVec = x.toModel.unpack := rfl
  have hfraction (m : ℕ) (e : ℤ) : fraction m e = (m * 2 ^ e.toNat, 2 ^ (-e).toNat) := by
    rw [fraction, Nat.shiftLeft_eq, Nat.shiftLeft_eq, one_mul]
  unfold Exact.ofFloat value
  rw [hunpack]
  cases hu : x.toModel.unpack with
  | notANumber => rw [hu] at hx'; exact absurd hx' (by decide)
  | infinity s => rw [hu] at hx'; exact absurd hx' Bool.false_ne_true
  | zero s => cases s <;> rfl
  | finite s m e hm =>
    cases s with
    | positive =>
      have hfloor := fdiv_eq_floor m e
      show Int.fdiv (fraction m e).1 (fraction m e).2 = ⌊(m : ℚ) * 2 ^ e⌋
      rw [hfraction]
      push_cast at hfloor ⊢
      exact hfloor
    | negative =>
      have hfloor := fdiv_eq_floor (-m) e
      rw [unpackedValue_negative]
      show Int.fdiv (-((fraction m e).1 : ℤ)) (fraction m e).2 = _
      rw [hfraction]
      push_cast at hfloor ⊢
      rw [← neg_mul, ← neg_mul]
      exact hfloor

/-! ### Between two powers of two -/

/-- **A whole number between two powers of two**, and the next one. The floats between these powers
are the multiples of the unit `2 ^ e`, of which there are `M` in a half, so that a tie is a float
like the others. -/
structure Between (n M e : ℤ) : Prop where
  least : -1074 ≤ e
  half : 0 < M
  unit : (2 * M : ℚ) * 2 ^ e = 1
  low : 2 ^ 52 * 2 ^ e ≤ (n : ℚ)
  high : (n : ℚ) + 1 ≤ 2 ^ 53 * 2 ^ e

namespace Between

variable {n M e : ℤ}

theorem pos (h : Between n M e) : 0 < n := by
  have hpos := two_zpow_pos e
  have hn : (0 : ℚ) < n := lt_of_lt_of_le (by positivity) h.low
  exact_mod_cast hn

/-- Whole numbers are multiples of the unit, and so are ties. -/
theorem multiple (h : Between n M e) (i : ℤ) : (i : ℚ) = (2 * M * i : ℤ) * 2 ^ e := by
  push_cast
  linear_combination -(i : ℚ) * h.unit

/-- Up to the next whole number there are no more units than floats have digits for. -/
theorem count (h : Between n M e) : 2 * M * (n + 1) ≤ 2 ^ 53 := by
  have hhigh : ((2 * M * (n + 1) : ℤ) : ℚ) * 2 ^ e ≤ 2 ^ 53 * 2 ^ e := by
    rw [← h.multiple, Int.cast_add, Int.cast_one]
    exact h.high
  exact_mod_cast le_of_mul_le_mul_right hhigh (two_zpow_pos e)

/-- **Every positive whole number of so many digits is between two powers of two**, those of its
leading digit and of the next place. -/
theorem exists_of_pos (hn : 0 < n) (hn' : n < 2 ^ 51) : ∃ M e, Between n M e := by
  lift n to ℕ using hn.le
  have hn0 : n ≠ 0 := by omega
  have hlog : n.log2 < 51 := (Nat.log2_lt hn0).mpr (by exact_mod_cast hn')
  have hlow : 2 ^ n.log2 ≤ n := Nat.log2_self_le hn0
  have hhigh : n < 2 ^ (n.log2 + 1) := Nat.lt_log2_self
  generalize n.log2 = k at hlog hlow hhigh
  obtain ⟨j, hj⟩ : ∃ j, 51 = k + j := ⟨51 - k, by omega⟩
  have hpower := two_zpow_eq k
  refine ⟨2 ^ j, k - 52, by omega, by positivity, ?_, ?_, ?_⟩
  · have hexponent : (k : ℤ) - 52 = -((j + 1 : ℕ) : ℤ) := by omega
    rw [hexponent, zpow_neg, zpow_natCast, pow_succ]
    push_cast
    field_simp
  · rw [← hpower]
    exact_mod_cast hlow
  · have hhigh' : (n : ℚ) + 1 ≤ 2 ^ k * 2 := by exact_mod_cast hhigh
    rw [zpow_natCast] at hpower
    push_cast
    linarith

end Between

namespace Nearest

variable {q x : ℚ} {n M e : ℤ}

/-- **What is below a tie** does not come up to the whole number above, with a half added. It is a
unit below the tie at least, so the sum is a unit below the whole number, and that is a float. -/
theorem lt_next (h : Nearest (q + 1 / 2) x) (hq : Representable q) (hn : Between n M e)
    (hlt : q < n + 1 / 2) : x < n + 1 := by
  have hpos := two_zpow_pos e
  have hwhole := hn.multiple (n + 1)
  have hcount := hn.count
  have hn0 := hn.pos
  have hunit := hn.unit
  push_cast at hwhole
  rcases hq.spaced e with ⟨i, rfl⟩ | hsmall
  · -- a multiple of the unit, and so a unit below the tie
    have htie : (n : ℚ) + 1 / 2 = (2 * M * n + M : ℤ) * 2 ^ e := by
      push_cast
      linear_combination -((n : ℚ) + 1 / 2) * hunit
    rw [htie] at hlt
    have hi : i < 2 * M * n + M := by exact_mod_cast lt_of_mul_lt_mul_right hlt hpos.le
    have hi' : (i : ℚ) ≤ 2 * M * n + M - 1 := by exact_mod_cast Int.le_sub_one_of_lt hi
    have hrepresentable : Representable ((2 * M * (n + 1) - 1 : ℤ) * 2 ^ e) := by
      refine representable_multiple (abs_le.mpr ⟨?_, by omega⟩) hn.least
      have : 0 < 2 * M * (n + 1) := mul_pos (mul_pos two_pos hn.half) (by omega)
      omega
    have hle : x ≤ (2 * M * (n + 1) - 1 : ℤ) * 2 ^ e := by
      refine h.le hrepresentable ?_
      have := mul_le_mul_of_nonneg_right hi' hpos.le
      push_cast
      linear_combination this - (1 / 2 : ℚ) * hunit
    rw [hwhole]
    refine hle.trans_lt ?_
    push_cast
    linear_combination hpos
  · -- below the lower power, and so below the tie by more than a half
    have hn' : n < 2 ^ 53 := by nlinarith [hn.half]
    have hbelow : q < n := (le_abs_self q).trans_lt (hsmall.trans_le hn.low)
    have hrepresentable : Representable ((2 * n + 1 : ℤ) * 2 ^ (-1 : ℤ)) :=
      representable_multiple (abs_le.mpr ⟨by omega, by nlinarith [hn.half]⟩) (by decide)
    have hle : x ≤ (2 * n + 1 : ℤ) * 2 ^ (-1 : ℤ) := by
      refine h.le hrepresentable ?_
      push_cast
      rw [zpow_neg_one]
      linarith
    push_cast at hle
    rw [zpow_neg_one] at hle
    linarith

/-- **What is below a negative tie** does not come up to the whole number above either. Here the
number above is nearer to zero, and so are the powers of two that it lies between. -/
theorem lt_neg (h : Nearest (q + 1 / 2) x) (hq : Representable q) (hn : Between n M e)
    (hlt : q < -n - 1 / 2) : x < -n := by
  have hpos := two_zpow_pos e
  have hunit := hn.unit
  rcases hq.spaced e with ⟨i, rfl⟩ | hsmall
  · have htie : -(n : ℚ) - 1 / 2 = (-(2 * M * n + M) : ℤ) * 2 ^ e := by
      push_cast
      linear_combination ((n : ℚ) + 1 / 2) * hunit
    rw [htie] at hlt
    have hi : i < -(2 * M * n + M) := by exact_mod_cast lt_of_mul_lt_mul_right hlt hpos.le
    have hi' : (i : ℚ) ≤ -(2 * M * n + M) - 1 := by exact_mod_cast Int.le_sub_one_of_lt hi
    have hrepresentable : Representable ((-(2 * M * n) - 1 : ℤ) * 2 ^ e) := by
      have hcount : 2 * M * n + 2 * M ≤ 2 ^ 53 := by linarith [hn.count]
      have hn0 : 0 < 2 * M * n := mul_pos (mul_pos two_pos hn.half) hn.pos
      have hhalf := hn.half
      exact representable_multiple (abs_le.mpr ⟨by omega, by omega⟩) hn.least
    have hle : x ≤ (-(2 * M * n) - 1 : ℤ) * 2 ^ e := by
      refine h.le hrepresentable ?_
      have := mul_le_mul_of_nonneg_right hi' hpos.le
      push_cast
      linear_combination this - (1 / 2 : ℚ) * hunit
    refine hle.trans_lt ?_
    push_cast
    linear_combination hpos - (n : ℚ) * hunit
  · -- too far from zero to be below the lower power
    have := (neg_le_abs q).trans_lt (hsmall.trans_le hn.low)
    linarith

end Nearest

/-! ### The ties next to zero -/

namespace Nearest

variable {q x : ℚ}

/-- **What is below minus a half** does not come up to zero: the sum is below zero by a gap at
least, and a negative float is that far away. -/
theorem lt_zero (h : Nearest (q + 1 / 2) x) (hq : Representable q) (hlt : q < -(1 / 2)) : x < 0 := by
  have hhalf : (2 : ℚ) ^ (-1 : ℤ) = 1 / 2 := by norm_num
  have hgap := hq.neg.gap (k := -1) (by rw [hhalf]; linarith)
  rw [hhalf] at hgap
  have hpos := two_zpow_pos (-1 - 52)
  have hle := h.le (representable_two_zpow (k := -1 - 52) (by decide)).neg (by linarith)
  linarith

/-- **What is below a half** does not come up to one, but for the float next to it. Just below one,
floats are twice as far apart as just below a half, so the sum with that one float is a tie itself,
and goes up. -/
theorem lt_one (h : Nearest (q + 1 / 2) x) (hq : Representable q) (hlt : q < 1 / 2)
    (hne : q ≠ 1 / 2 - 2 ^ (-54 : ℤ)) : x < 1 := by
  have hunit : (2 ^ 53 : ℚ) * 2 ^ (-54 : ℤ) = 1 / 2 := by norm_num
  have hpower : (2 : ℚ) ^ (-53 : ℤ) = 2 * 2 ^ (-54 : ℤ) := by norm_num
  have hpos := two_zpow_pos (-54)
  have hspaced := hq.spaced (-54)
  have hrepresentable : Representable ((2 ^ 53 - 1) * (2 * 2 ^ (-54 : ℤ))) := by
    have hcount : |(2 ^ 53 - 1 : ℤ)| ≤ 2 ^ 53 := by decide
    rw [← hpower]
    exact_mod_cast representable_multiple hcount (by decide)
  generalize (2 : ℚ) ^ (-54 : ℤ) = unit at *
  -- two units below the tie, the sum can be represented
  have hle : q + 1 / 2 ≤ (2 ^ 53 - 1) * (2 * unit) := by
    rcases hspaced with ⟨i, rfl⟩ | hsmall
    · rw [← hunit] at hlt
      have hi : i < 2 ^ 53 := by exact_mod_cast lt_of_mul_lt_mul_right hlt hpos.le
      have hi' : i ≠ 2 ^ 53 - 1 := by
        rintro rfl
        refine hne ?_
        push_cast
        linear_combination hunit
      have hi'' : (i : ℚ) ≤ 2 ^ 53 - 2 := by
        have : i ≤ 2 ^ 53 - 2 := by omega
        exact_mod_cast this
      have := mul_le_mul_of_nonneg_right hi'' hpos.le
      linear_combination this - hunit
    · have := (le_abs_self q).trans_lt hsmall
      linarith
  have hx := h.le hrepresentable hle
  linarith

end Nearest

/-! ### Adding a half -/

theorem isFinite_half : isFinite 0.5 = true := rfl

theorem value_half : value 0.5 = 1 / 2 := by
  show ((2 ^ 52 : ℕ) : ℚ) * 2 ^ (-53 : ℤ) = 1 / 2
  norm_num

theorem modest_unpackBits (b : BitVec Format.binary64.numBits)
    (h : (UnpackedFloat.unpack Format.binary64 b).isFinite = true) :
    Modest 971 (UnpackedFloat.unpack Format.binary64 b) := by
  revert h
  refine unpack_cases b (motive := fun u => u.isFinite = true → Modest 971 u) ?special
    (fun _ _ _ => .zero _) (fun _ _ _ _ => .finite (by decide)) ?full
  case special => exact fun _ u hu h => nomatch hu.symm.trans h
  case full =>
    intro _ hmost _ _
    have hbound : (unpackExponent b).toNat < 2048 := (unpackExponent b).isLt
    have hless : (unpackExponent b).toNat ≠ 2047 := fun h => hmost (BitVec.eq_of_toNat_eq h)
    exact .finite (by omega)

/-- The exponent of a finite float fits, as the greatest one is kept for other floats. -/
theorem modest_unpack {x : Float} (hx : isFinite x = true) : Modest 971 x.toModel.unpack :=
  modest_unpackBits _ hx

/-- **No finite float is as large as `2 ^ 1024`**, by one unit of the largest. -/
theorem abs_value_le {x : Float} (hx : isFinite x = true) :
    |value x| ≤ 2 ^ (1024 : ℤ) - 2 ^ (971 : ℤ) := by
  have hpower : (2 : ℚ) ^ (1024 : ℤ) = 2 ^ 53 * 2 ^ (971 : ℤ) := two_zpow_eq_mul 1024
  have hcanonical := canonical_unpack hx
  have hmodest := modest_unpack hx
  unfold value
  generalize x.toModel.unpack = u at hcanonical hmodest
  rw [hpower]
  cases hcanonical with
  | zero s =>
    show |(0 : ℚ)| ≤ _
    rw [abs_zero, sub_nonneg]
    exact le_mul_of_one_le_left (two_zpow_pos 971).le (by norm_num)
  | @finite s m e hm below least full =>
    cases hmodest with
    | finite he =>
      have hm' : (m : ℚ) ≤ 2 ^ 53 - 1 := by
        have : (m : ℚ) + 1 ≤ 2 ^ 53 := by exact_mod_cast below
        linarith
      have habs : |unpackedValue (.finite s m e hm)| = m * 2 ^ e := by
        have hnonneg : (0 : ℚ) ≤ m * 2 ^ e := mul_nonneg (Nat.cast_nonneg m) (two_zpow_pos e).le
        cases s with
        | positive => exact abs_of_nonneg hnonneg
        | negative => rw [unpackedValue_negative, abs_neg, abs_of_nonneg hnonneg]
      rw [habs]
      calc (m : ℚ) * 2 ^ e ≤ (2 ^ 53 - 1) * 2 ^ (971 : ℤ) :=
            mul_le_mul hm' (zpow_le_zpow_right₀ one_le_two he) (two_zpow_pos e).le (by norm_num)
        _ = 2 ^ 53 * 2 ^ (971 : ℤ) - 2 ^ (971 : ℤ) := by ring

/-- **Half a unit more** is a float again, however large the first one is: for the largest ones, the
half is lost in rounding. -/
theorem rounds_add_half {v : Float} (hv : isFinite v = true) :
    Rounds (value v + 1 / 2) (v + 0.5) := by
  have hrounded := rounded_add (canonical_unpack hv) (canonical_unpack isFinite_half)
  change Rounded (value v + value 0.5) _ at hrounded
  rw [value_half] at hrounded
  refine hrounded.rounds_of_fits ?_
  -- the float itself is only half a unit away from the sum
  have hnear := hrounded.nearest _ (representable_value hv)
  have hmost := abs_value_le hv
  have hone : (1 : ℚ) < 2 ^ (971 : ℤ) := one_lt_zpow₀ one_lt_two (by decide)
  rw [abs_le] at hmost
  have hdistance : |value v - (value v + 1 / 2)| = 1 / 2 := by norm_num [abs_of_nonneg]
  rw [hdistance, abs_le] at hnear
  generalize (2 : ℚ) ^ (971 : ℤ) = gap at hmost hone
  generalize (2 : ℚ) ^ (1024 : ℤ) = top at hmost ⊢
  exact abs_lt.mpr ⟨by linarith, by linarith⟩

/-- **Adding a half and taking the floor** rounds to the nearest whole number, a half going up, but
for the float just below a half. That the result is not too low is clear, as a whole number is a
float; that it is not too high is a matter of the ties. -/
theorem floor_add_half {v : Float} (hv : isFinite v = true) (hbound : |value v| ≤ 2 ^ 50)
    (hne : value v ≠ 1 / 2 - 2 ^ (-54 : ℤ)) :
    (Exact.ofFloat (v + 0.5)).floor = round (value v) := by
  have hsum := rounds_add_half hv
  have hq := representable_value hv
  rw [Exact.floor_ofFloat hsum.finite, round_eq, Int.floor_eq_iff]
  have hlow := Int.floor_le (value v + 1 / 2)
  have hhigh := Int.lt_floor_add_one (value v + 1 / 2)
  generalize ⌊value v + 1 / 2⌋ = n at hlow hhigh
  obtain ⟨hbelow, habove⟩ := abs_le.mp hbound
  have hn : n < 2 ^ 51 := by
    have : (n : ℚ) < 2 ^ 51 := by linarith
    exact_mod_cast this
  have hn' : -(2 ^ 51) < n := by
    have : (-(2 ^ 51) : ℚ) < n := by linarith
    exact_mod_cast this
  refine ⟨hsum.nearest.ge (representable_intCast (abs_lt.mpr ⟨by omega, by omega⟩)) hlow, ?_⟩
  -- the tie is above zero, next to it, or below it
  rcases lt_trichotomy n 0 with hneg | rfl | hpos
  -- minus a half is next to zero; all lower ties lie between powers of two
  · rcases eq_or_ne n (-1) with rfl | hlast
    · have hzero := hsum.nearest.lt_zero hq (by push_cast at hhigh; linarith)
      push_cast
      linarith
    · obtain ⟨M, e, hbetween⟩ := Between.exists_of_pos (n := -(n + 1)) (by omega) (by omega)
      have hless := hsum.nearest.lt_neg hq hbetween (by push_cast; linarith)
      push_cast at hless
      linarith
  · have hone := hsum.nearest.lt_one hq (by push_cast at hhigh; linarith) hne
    push_cast
    linarith
  · obtain ⟨M, e, hbetween⟩ := Between.exists_of_pos hpos hn
    exact hsum.nearest.lt_next hq hbetween (by linarith)

/-- The greatest float below a half. -/
def belowHalf : Float := 0.49999999999999994

theorem value_belowHalf : value belowHalf = 1 / 2 - 2 ^ (-54 : ℤ) := by
  show ((2 ^ 53 - 1 : ℕ) : ℚ) * 2 ^ (-54 : ℤ) = _
  norm_num

/-- **The float just below a half** comes to 1, as the sum is rounded up to 1 before the floor is
taken. -/
theorem floor_belowHalf : (Exact.ofFloat (belowHalf + 0.5)).floor = 1 := rfl

/-- The magnitude of a canonical float has one form: of two different exponents, the smaller one is
that of the smaller magnitude. -/
theorem magnitude_inj {m n : Nat} {e f : Int} (hm : m < 2 ^ 53) (hn : n < 2 ^ 53) (he : -1074 ≤ e)
    (hf : -1074 ≤ f) (hm' : 2 ^ 52 ≤ m ∨ e = -1074) (hn' : 2 ^ 52 ≤ n ∨ f = -1074)
    (h : (m : ℚ) * 2 ^ e = n * 2 ^ f) : m = n ∧ e = f := by
  rcases lt_trichotomy e f with hlt | rfl | hlt
  · exact absurd h (magnitude_lt_of_exponent_lt hm he hn' hlt).ne
  · exact ⟨by exact_mod_cast mul_right_cancel₀ (two_zpow_pos e).ne' h, rfl⟩
  · exact absurd h (magnitude_lt_of_exponent_lt hn hf hm' hlt).ne'

/-- **A canonical float other than zero is known by its value.** The sign is told by the sign of the
value, and the magnitude has one form. -/
theorem Canonical.eq_of_value_eq {u v : UnpackedFloat} (hu : Canonical u) (hv : Canonical v)
    (hne : unpackedValue u ≠ 0) (h : unpackedValue u = unpackedValue v) : u = v := by
  have hpositive {m : Nat} (e : Int) (hm : 0 < m) : (0 : ℚ) < m * 2 ^ e :=
    mul_pos (by exact_mod_cast hm) (two_zpow_pos e)
  cases hu with
  | zero s => exact absurd rfl hne
  | @finite s m e hm below least full =>
    cases hv with
    | zero t => exact absurd h hne
    | @finite t n f hn below' least' full' =>
      have hlow := hpositive e hm
      have hlow' := hpositive f hn
      -- different signs would be signs of different values
      cases s with
      | positive =>
        cases t with
        | positive =>
          rw [unpackedValue_positive, unpackedValue_positive] at h
          obtain ⟨rfl, rfl⟩ := magnitude_inj below below' least least' full full' h
          rfl
        | negative =>
          rw [unpackedValue_positive, unpackedValue_negative] at h
          linarith
      | negative =>
        cases t with
        | positive =>
          rw [unpackedValue_negative, unpackedValue_positive] at h
          linarith
        | negative =>
          rw [unpackedValue_negative, unpackedValue_negative] at h
          obtain ⟨rfl, rfl⟩ :=
            magnitude_inj below below' least least' full full' (neg_injective h)
          rfl

/-- **A float other than zero** is known by its value. -/
theorem eq_of_value_eq {x y : Float} (hx : isFinite x = true) (hy : isFinite y = true)
    (hne : value x ≠ 0) (h : value x = value y) : x = y := by
  have hsame : x.toModel.unpack = y.toModel.unpack :=
    (canonical_unpack hx).eq_of_value_eq (canonical_unpack hy) hne h
  refine eq_of_toModel_eq_pack hy ?_
  rw [← hsame, pack_unpack hx]

end StagePlay.Number
