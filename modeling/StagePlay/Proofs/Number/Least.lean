import Mathlib.Data.Nat.Log
import StagePlay.Proofs.Number.Finite

/-!
# Floats that are not small

How small can a rounded result be? A positive float with a full mantissa is at least the power of
two that its leading digit stands for, and rounding to the nearest float never goes below a power of
two that it started above. So one exponent tells enough of a sum, a product or a quotient to say
that it is not below 1.

* `AtLeast k u` — the unpacked float `u` is positive with a full mantissa and not below `2 ^ k`;
* `atLeast_roundWithAccuracy`, `atLeast_repack` — rounding and packing keep the power of two;
* `atLeast_mul`, `atLeast_add`, `atLeast_div` — what the operations make of it;
* `atLeast_natFloat` — the floats of positive whole numbers;
* `AtLeast.one_le` — a float with `AtLeast 0` is not below 1.
-/

namespace StagePlay.Number

open Float.Model Float.Model.UnpackedFloat

/-- **An unpacked float that is not below `2 ^ k`**: a positive number with a full mantissa, or the
positive infinity. The leading digit of a full mantissa stands for `2 ^ (e + 52)`. -/
inductive AtLeast (k : Int) : UnpackedFloat → Prop
  | infinity : AtLeast k (.infinity .positive)
  | finite {m : Nat} {e : Int} {hm : 0 < m} (full : m.log2 = 52) (h : k ≤ e + 52) :
    AtLeast k (.finite .positive m e hm)

/-- What is not below a power of two is not below a smaller one. -/
theorem AtLeast.mono {k l : Int} {u : UnpackedFloat} (h : AtLeast k u) (hl : l ≤ k) :
    AtLeast l u := by
  cases h with
  | infinity => exact .infinity
  | finite full h => exact .finite full (by omega)

/-! ### The leading digit -/

theorem log2_mono {m n : Nat} (h : m ≤ n) : m.log2 ≤ n.log2 := by
  rw [Nat.log2_eq_log_two, Nat.log2_eq_log_two]
  exact Nat.log_mono_right h

/-- Zeros behind the digits raise the leading one. -/
theorem log2_shiftLeft {m : Nat} (hm : 0 < m) (k : Nat) : (m <<< k).log2 = m.log2 + k := by
  rw [Nat.shiftLeft_eq, Nat.log2_eq_log_two, Nat.log2_eq_log_two]
  induction k with
  | zero => rw [Nat.pow_zero, Nat.mul_one, Nat.add_zero]
  | succ k ih =>
    rw [Nat.pow_succ, ← Nat.mul_assoc, Nat.log_mul_base (by decide), ih, Nat.add_assoc]
    exact Nat.mul_ne_zero (Nat.ne_of_gt hm) (Nat.ne_of_gt (Nat.two_pow_pos k))

/-- The leading digits of a product add up, if not to one place more. -/
theorem log2_mul_le {m n : Nat} (hm : 0 < m) (hn : 0 < n) : m.log2 + n.log2 ≤ (m * n).log2 := by
  rw [Nat.le_log2 (Nat.ne_of_gt (Nat.mul_pos hm hn)), Nat.pow_add]
  exact Nat.mul_le_mul (Nat.log2_self_le (Nat.ne_of_gt hm)) (Nat.log2_self_le (Nat.ne_of_gt hn))

/-- The leading digit of a quotient is lost to one place, as the divisor is less than twice its own
leading digit. -/
theorem log2_le_div {m n : Nat} (hn : 0 < n) (h : n.log2 < m.log2) :
    m.log2 ≤ (m / n).log2 + n.log2 + 1 := by
  have hm : 0 < m := Nat.pos_of_ne_zero fun hzero => by
    rw [hzero] at h
    exact absurd h (Nat.not_lt_zero _)
  have hquotient : 2 ^ (m.log2 - (n.log2 + 1)) ≤ m / n := by
    rw [Nat.le_div_iff_mul_le hn]
    calc 2 ^ (m.log2 - (n.log2 + 1)) * n
        ≤ 2 ^ (m.log2 - (n.log2 + 1)) * 2 ^ (n.log2 + 1) :=
          Nat.mul_le_mul_left _ (Nat.le_of_lt Nat.lt_log2_self)
      _ = 2 ^ m.log2 := by rw [← Nat.pow_add, Nat.sub_add_cancel h]
      _ ≤ m := Nat.log2_self_le (Nat.ne_of_gt hm)
  have hlead := (Nat.le_log2 (Nat.ne_of_gt (Nat.lt_of_lt_of_le (Nat.two_pow_pos _) hquotient))).mpr
    hquotient
  omega

/-! ### Rounding -/

/-- A shift divides by so many twos. -/
theorem shiftRight_mantissa (em : ExtendedMantissa) (k : Nat) :
    (em >>> k).mantissa = em.mantissa / 2 ^ k := by
  induction k with
  | zero => exact (Nat.div_one _).symm
  | succ k ih =>
    show (em >>> k).mantissa / 2 = _
    rw [ih, Nat.div_div_eq_div_mul, Nat.pow_succ]

theorem ofMantissaAndAccuracy_mantissa (m : Nat) (accuracy : Accuracy) :
    (ExtendedMantissa.ofMantissaAndAccuracy m accuracy).mantissa = m := by
  cases accuracy with
  | exact => rfl
  | inexact half => cases half <;> rfl

theorem le_roundedMantissa (em : ExtendedMantissa) : em.mantissa ≤ em.roundedMantissa := by
  obtain ⟨m, r, s⟩ := em
  cases r <;> cases s <;>
    simp [ExtendedMantissa.roundedMantissa, ExtendedMantissa.accuracy, Accuracy.roundToNearestEven]

/-- **A shift to the target exponent** of a number with enough digits leaves a full mantissa, and
the leading digit stands for what it stood for. -/
theorem shiftToTarget_full {m : Nat} {e : Int} (hm : 52 ≤ m.log2) (hleast : -1022 ≤ e + m.log2)
    (accuracy : Accuracy) :
    (shiftToTargetExponent Format.binary64 m e accuracy).1.mantissa.log2 = 52 ∧
      (shiftToTargetExponent Format.binary64 m e accuracy).2 + 52 = e + m.log2 := by
  have hpos : m ≠ 0 := fun hzero => by
    rw [hzero] at hm
    exact absurd hm (by decide)
  have hshift : (Format.binary64.targetExponent (totalExponent m e) - e).toNat = m.log2 - 52 := by
    rw [targetExponent_eq]
    omega
  constructor
  · -- a shift by the digits that are too many divides by so many twos
    show (ExtendedMantissa.ofMantissaAndAccuracy m accuracy >>>
      (Format.binary64.targetExponent (totalExponent m e) - e).toNat).mantissa.log2 = 52
    rw [hshift, shiftRight_mantissa, ofMantissaAndAccuracy_mantissa, Nat.log2_eq_log_two,
      Nat.log_div_base_pow, ← Nat.log2_eq_log_two]
    omega
  · show e + ((Format.binary64.targetExponent (totalExponent m e) - e).toNat : Int) + 52 = _
    rw [hshift]
    omega

/-- **Rounding stays above a power of two.** It goes down only by what is dropped behind the leading
digit, and a carry goes up. -/
theorem atLeast_roundWithAccuracy {m : Nat} {e k : Int} (hm : 52 ≤ m.log2) (hk : k ≤ e + m.log2)
    (hleast : -1022 ≤ k) (accuracy : Accuracy) :
    AtLeast k (roundWithAccuracy Format.binary64 .positive m e accuracy) := by
  obtain ⟨hfull, hexponent⟩ := shiftToTarget_full (e := e) hm (by omega) accuracy
  -- a carry can only add a digit, which the second shift takes off again
  have hcarry := log2_mono
    (le_roundedMantissa (shiftToTargetExponent Format.binary64 m e accuracy).1)
  obtain ⟨hfull', hexponent'⟩ := shiftToTarget_full
    (m := (shiftToTargetExponent Format.binary64 m e accuracy).1.roundedMantissa)
    (e := (shiftToTargetExponent Format.binary64 m e accuracy).2) (by omega) (by omega) .exact
  unfold roundWithAccuracy
  dsimp only
  rw [dif_neg fun hzero => ?_]
  · exact .finite hfull' (by omega)
  · rw [hzero] at hfull'
    exact absurd hfull' (by decide)

/-- Numbers with fewer digits get zeros behind them before they are rounded, and these change
nothing of the leading digit's place. -/
theorem atLeast_round {m : Nat} {e k : Int} (hm : 0 < m) (hk : k ≤ e + m.log2)
    (hleast : -1022 ≤ k) :
    AtLeast k (round Format.binary64 .positive m e) := by
  have hlog := log2_shiftLeft hm (e - Format.binary64.targetExponent (totalExponent m e)).toNat
  refine atLeast_roundWithAccuracy ?_ ?_ hleast .exact
  · rw [hlog, targetExponent_eq]
    omega
  · rw [hlog]
    omega

/-- A positive whole number of units is rounded like a mantissa. -/
theorem atLeast_normalize {m : Nat} {e k : Int} (hm : 0 < m) (hk : k ≤ e + m.log2)
    (hleast : -1022 ≤ k) :
    AtLeast k (UnpackedFloat.normalize Format.binary64 (m : Int) e .positive) := by
  unfold UnpackedFloat.normalize
  split
  · next hless => exact absurd (Int.compare_eq_lt.mp hless) (by omega)
  · next hequal => exact absurd (Int.compare_eq_eq.mp hequal) (by omega)
  · exact atLeast_round hm hk hleast

/-! ### Packing -/

theorem unpackSign_packComponents {s : Sign} {exponent : BitVec 11} {mantissa : BitVec 52} :
    unpackSign (packComponents Format.binary64 s exponent mantissa) = s.toBitVec := by
  show (s.toBitVec ++ exponent ++ mantissa).extractLsb' 63 1 = s.toBitVec
  rw [BitVec.extractLsb'_append_eq_of_le (by decide),
    BitVec.extractLsb'_append_eq_of_le (by decide)]
  cases s <;> rfl

/-- A mantissa is full once the leading digit is put back. -/
theorem log2_implicit (mantissa : BitVec 52) : (1#1 ++ mantissa).toNat.log2 = 52 := by
  have hlow : 2 ^ 52 ≤ (1#1 ++ mantissa).toNat := by
    rw [BitVec.toNat_append]
    exact Nat.left_le_or
  exact (Nat.log2_eq_iff (by omega)).mpr ⟨hlow, (1#1 ++ mantissa).isLt⟩

/-- What is packed with an exponent between the two that are kept for other floats is unpacked with
a full mantissa. -/
theorem atLeast_unpack_components {exponent : BitVec 11} (mantissa : BitVec 52) {k : Int}
    (hzero : exponent ≠ 0#11) (hmost : exponent ≠ -1#11) (h : k ≤ exponent.toNat - 1075 + 52) :
    AtLeast k (UnpackedFloat.unpack Format.binary64
      (packComponents Format.binary64 .positive exponent mantissa)) := by
  have hsign : unpackSign (packComponents Format.binary64 .positive exponent mantissa) =
      Sign.toBitVec .positive := unpackSign_packComponents
  have hpacked : unpackExponent (packComponents Format.binary64 .positive exponent mantissa) =
      exponent := unpackExponent_packComponents
  -- the bits are held fixed: that the mantissa is not 0 is said of them, and stays as it is
  generalize packComponents Format.binary64 .positive exponent mantissa = b at hsign hpacked ⊢
  subst hpacked
  unfold UnpackedFloat.unpack
  dsimp only
  rw [if_neg hmost, if_neg hzero, hsign]
  exact .finite (log2_implicit _) h

/-- **Packing stays above a power of two.** A float that is too large for the format becomes the
infinity, which is above it as well. -/
theorem atLeast_repack {u : UnpackedFloat} {k : Int} (h : AtLeast k u) (hleast : -1022 ≤ k) :
    AtLeast k (pack u).unpack := by
  have hinfinity : AtLeast k
      (UnpackedFloat.unpack Format.binary64 (packedInfinity Format.binary64 .positive)) := by
    have hbits : UnpackedFloat.unpack Format.binary64 (packedInfinity Format.binary64 .positive) =
        .infinity .positive := by rfl
    rw [hbits]
    exact .infinity
  have hbias : (Format.binary64.exponentBias : Int) = 1023 := rfl
  cases h with
  | infinity => exact hinfinity
  | @finite m e hm full he =>
    show AtLeast k (UnpackedFloat.unpack Format.binary64
      (UnpackedFloat.pack Format.binary64 (.finite .positive m e hm)))
    unfold UnpackedFloat.pack
    dsimp only
    by_cases hover : 2 ^ 11 ≤ (e + Format.binary64.exponentBias + (52 : Nat)).toNat + 1
    · -- what is too large for the format is infinite
      rw [if_pos hover]
      exact hinfinity
    · rw [if_neg hover, full, if_pos (by decide)]
      have hexponent : (BitVec.ofNat 11
          (e + Format.binary64.exponentBias + (52 : Nat)).toNat).toNat = (e + 1075).toNat := by
        rw [BitVec.toNat_ofNat, Nat.mod_eq_of_lt (by omega)]
        omega
      -- the exponent is neither that of the smallest floats nor that of the infinities
      refine atLeast_unpack_components _ (fun hzero => ?_) (fun hmost => ?_)
        (by rw [hexponent]; omega)
      · rw [hzero] at hexponent
        have : (0#11).toNat = 0 := rfl
        omega
      · rw [hmost] at hexponent
        have : (-1#11).toNat = 2047 := rfl
        omega

/-! ### Operations -/

/-- A product of two positive mantissas is rounded once. -/
theorem atLeast_mul_finite {m n : Nat} {e f k : Int} {hm : 0 < m} {hn : 0 < n}
    (hfull : 52 ≤ (m * n).log2) (hk : k ≤ e + f + (m * n).log2) (hleast : -1022 ≤ k) :
    AtLeast k (UnpackedFloat.mul Format.binary64 (.finite .positive m e hm)
      (.finite .positive n f hn)) :=
  atLeast_roundWithAccuracy hfull hk hleast .exact

/-- **A product** is not below the product of the two powers. With an infinity it is the infinity,
as neither factor is a zero. -/
theorem atLeast_mul {x y : Float.Model} {k l : Int} (hx : AtLeast k x.unpack)
    (hy : AtLeast l y.unpack) (hleast : -1022 ≤ k + l) : AtLeast (k + l) (x * y).unpack := by
  refine atLeast_repack ?_ hleast
  show AtLeast (k + l) (UnpackedFloat.mul Format.binary64 x.unpack y.unpack)
  generalize x.unpack = u at hx
  generalize y.unpack = v at hy
  cases hx with
  | infinity => cases hy <;> exact .infinity
  | @finite m e hm full he =>
    cases hy with
    | infinity => exact .infinity
    | @finite n f hn full' hf =>
      have hlog := log2_mul_le hm hn
      exact atLeast_mul_finite (by omega) (by omega) hleast

/-- **What may be added** without getting lower: nothing, or another positive number. -/
inductive NonNegative : UnpackedFloat → Prop
  | zero : NonNegative (.zero .positive)
  | positive {k : Int} {u : UnpackedFloat} (h : AtLeast k u) : NonNegative u

/-- **A sum** is not below its first part. -/
theorem atLeast_add {x y : Float.Model} {k : Int} (hx : AtLeast k x.unpack)
    (hy : NonNegative y.unpack) (hleast : -1022 ≤ k) : AtLeast k (x + y).unpack := by
  refine atLeast_repack ?_ hleast
  show AtLeast k (UnpackedFloat.add Format.binary64 x.unpack y.unpack)
  generalize x.unpack = u at hx
  generalize y.unpack = v at hy
  cases hx with
  | infinity =>
    -- the infinity with anything else is the infinity
    cases hy with
    | zero => exact .infinity
    | positive hy => cases hy <;> exact .infinity
  | @finite m e hm full he =>
    cases hy with
    | zero => exact .finite full he
    | positive hy =>
      cases hy with
      | infinity => exact .infinity
      | @finite n f hn full' hf =>
        -- both are written with the smaller exponent and added
        have hpart : 0 < m <<< (e - min e f).toNat := by
          rw [Nat.shiftLeft_eq]
          exact Nat.mul_pos hm (Nat.two_pow_pos _)
        have hlog := log2_shiftLeft hm (e - min e f).toNat
        have hsum := log2_mono
          (Nat.le_add_right (m <<< (e - min e f).toNat) (n <<< (f - min e f).toNat))
        show AtLeast k (UnpackedFloat.normalize Format.binary64
          (((m <<< (e - min e f).toNat : Nat) : Int) + ((n <<< (f - min e f).toNat : Nat) : Int))
          (min e f) .positive)
        rw [← Int.natCast_add]
        exact atLeast_normalize (Nat.add_pos_left hpart _) (by omega) hleast

/-- A quotient of two numbers is what comes of the division of the mantissas, rounded. -/
theorem div_finite {s t : Sign} {m n q : Nat} {e f g : Int} {accuracy : Accuracy} (hm : 0 < m)
    (hn : 0 < n) (h : divCore Format.binary64 m e n f = (q, g, accuracy)) :
    UnpackedFloat.div Format.binary64 (.finite s m e hm) (.finite t n f hn) =
      roundWithAccuracy Format.binary64 (s / t) q g accuracy := by
  unfold UnpackedFloat.div
  simp only [h]

/-- **A quotient** by a float with a full mantissa is not below the quotient of the powers, or half
of it. The divisor may be close to the next power, and that is the half. -/
theorem atLeast_div {x y : Float.Model} {n : Nat} {f k : Int} {hn : 0 < n}
    (hx : AtLeast k x.unpack) (hy : y.unpack = .finite .positive n f hn) (full : n.log2 = 52)
    (hleast : -1022 ≤ k - f - 53) : AtLeast (k - f - 53) (x / y).unpack := by
  refine atLeast_repack ?_ hleast
  show AtLeast (k - f - 53) (UnpackedFloat.div Format.binary64 x.unpack y.unpack)
  rw [hy]
  generalize x.unpack = u at hx
  cases hx with
  | infinity => exact .infinity
  | @finite m e hm full' he =>
    -- enough zeros are put behind the dividend that the quotient has a full mantissa
    have htarget : min (e - f)
        (Format.binary64.targetExponent (totalExponent m e - totalExponent n f)) = e - f - 53 := by
      show min (e - f) (max ((m.log2 + 1 + e) - (n.log2 + 1 + f) - 53) (-1074)) = _
      omega
    have hshift : (e - f - (e - f - 53)).toNat = 53 := by omega
    have hcore : divCore Format.binary64 m e n f =
        (m <<< 53 / n, e - f - 53, accuracyOfFraction (m <<< 53 % n) n) := by
      unfold divCore
      rw [htarget]
      dsimp only
      rw [hshift]
    have hlog := log2_shiftLeft hm 53
    have hquotient := log2_le_div (m := m <<< 53) hn (by omega)
    have hround := atLeast_roundWithAccuracy (m := m <<< 53 / n) (e := e - f - 53) (by omega)
      (by omega) hleast (accuracyOfFraction (m <<< 53 % n) n)
    rw [div_finite hm hn hcore]
    exact hround

/-! ### Whole numbers -/

theorem unpack_one :
    (1.0 : Float).toModel.unpack = .finite .positive (2 ^ 52) (-52) (by decide) := by
  rfl

/-- **A positive whole number** is not below the power of two of its leading digit, as a float, in
either of the two ways in which the float is made. -/
theorem atLeast_natFloat {n : Nat} (hpos : 0 < n) :
    AtLeast n.log2 (Float.ofNat n).toModel.unpack := by
  show AtLeast n.log2 (Float.ofScientific n false 0).toModel.unpack
  unfold Float.ofScientific
  split
  · next hsmall =>
    -- so few digits are read exactly, as a word times the zeroth power of ten
    have hsame : n.toUInt64.toNat = n :=
      UInt64.toNat_ofNat_of_lt' (Nat.lt_trans hsmall.1 (by decide))
    have hword : AtLeast n.log2 n.toUInt64.toFloat.toModel.unpack := by
      refine atLeast_repack ?_ (by omega)
      show AtLeast n.log2 (UnpackedFloat.ofNat Format.binary64 n.toUInt64.toNat)
      rw [hsame]
      exact atLeast_normalize hpos (by omega) (by omega)
    have hone : AtLeast 0 (Float.ofBits 0x3FF0000000000000).toModel.unpack := by
      have hbits : (Float.ofBits 0x3FF0000000000000).toModel.unpack =
          .finite .positive (2 ^ 52) (-52) (by decide) := by
        rfl
      rw [hbits]
      exact .finite (Nat.log2_two_pow) (by decide)
    exact (atLeast_mul hword hone (by omega)).mono (by omega)
  · -- more digits are rounded, with zeros behind them
    refine atLeast_repack ?_ (by omega)
    show AtLeast n.log2 (UnpackedFloat.ofScientific Format.binary64 n 0)
    have hlow : ¬ (0 : Int) < -((2 ^ Format.binary64.exponentBits : Int) + n.log2) := by
      have hbits : Format.binary64.exponentBits = 11 := rfl
      rw [hbits]
      omega
    have hdigits : Format.binary64.mantissaBits = 53 := rfl
    have hlog : (n <<< Format.binary64.mantissaBits * 10 ^ (0 : Int).toNat).log2 = n.log2 + 53 := by
      rw [Int.toNat_zero, Nat.pow_zero, Nat.mul_one, log2_shiftLeft hpos, hdigits]
    unfold UnpackedFloat.ofScientific
    rw [dif_neg (Nat.ne_of_gt hpos), if_neg (by decide), if_neg hlow, if_pos (by decide)]
    exact atLeast_mul_finite (by omega) (by rw [hlog, hdigits]; omega) (by omega)

/-! ### Comparing with one -/

theorem le_iff_unpack {x y : Float} :
    x ≤ y ↔ UnpackedFloat.le x.toModel.unpack y.toModel.unpack = true := decide_eq_true_iff

theorem lt_iff_unpack {x y : Float} :
    x < y ↔ UnpackedFloat.lt x.toModel.unpack y.toModel.unpack = true := decide_eq_true_iff

/-- **A float that is not below `2 ^ 0`** is not below 1. -/
theorem AtLeast.one_le {x : Float} (h : AtLeast 0 x.toModel.unpack) : (1.0 : Float) ≤ x := by
  rw [le_iff_unpack, unpack_one]
  generalize x.toModel.unpack = u at h
  cases h with
  | infinity => rfl
  | @finite m e hm full he =>
    have hlow : 2 ^ 52 ≤ m := by
      have := Nat.log2_self_le (Nat.ne_of_gt hm)
      rwa [full] at this
    -- the exponents decide, and with the same exponent the mantissas
    show (some ((compare (-52) e).then (compare (2 ^ 52) m))).any (·.isLE) = true
    rcases Int.lt_or_eq_of_le (show (-52 : Int) ≤ e by omega) with hless | hequal
    · rw [Int.compare_eq_lt.mpr hless]
      rfl
    · subst hequal
      rw [Int.compare_eq_eq.mpr rfl]
      show (compare (2 ^ 52) m).isLE = true
      exact Nat.isLE_compare.mpr hlow

/-- **A float that is not below 1 is clamped to 1**, or at least to nothing below it. -/
theorem one_le_clamp {x : Float} (h : AtLeast 0 x.toModel.unpack) :
    (1.0 : Float) ≤ clamp 0.0 1.0 x := by
  have hzero : ¬ x < 0.0 := by
    have hbits : (0.0 : Float).toModel.unpack = .zero .positive := by rfl
    rw [lt_iff_unpack, hbits]
    generalize x.toModel.unpack = u at h
    cases h <;> exact Bool.false_ne_true
  unfold clamp
  rw [if_neg hzero]
  split
  · exact (by decide : (1.0 : Float) ≤ 1.0)
  · exact h.one_le

end StagePlay.Number
