import Mathlib.Algebra.Group.Nat.Defs
import StagePlay.Number.Exact
import StagePlay.Number.Word

/-!
# Floats of whole numbers

A whole number that 64 bits hold has a finite float. Floats overflow only where they are packed with
an exponent above 970, so it is enough to know roughly how far rounding can raise an exponent: by
what it drops from the mantissa, and by at most as much again after a carry.

* `Modest bound u` — the unpacked float `u` is a number with an exponent up to `bound`;
* `modest_round`, `modest_mul`, `modest_repack` — rounding, multiplying and packing keep a float
  modest;
* `isFinite_ofInt` — the result.
-/

namespace StagePlay.Number

open Float.Model Float.Model.UnpackedFloat

/-- **An unpacked float that is a number**, with an exponent up to `bound`. Nothing is said of its
mantissa; that is known to have 53 digits at most once it is packed. -/
inductive Modest (bound : Int) : UnpackedFloat → Prop
  | zero (s : Sign) : Modest bound (.zero s)
  | finite {s : Sign} {m : Nat} {e : Int} {hm : 0 < m} (h : e ≤ bound) :
    Modest bound (.finite s m e hm)

/-- A modest float is finite. -/
theorem Modest.isFinite {bound : Int} {u : UnpackedFloat} (h : Modest bound u) :
    u.isFinite = true := by
  cases h <;> rfl

/-! ### Rounding -/

/-- Shifting only drops digits. -/
theorem shiftRight_mantissa_le (em : ExtendedMantissa) (k : Nat) :
    (em >>> k).mantissa ≤ em.mantissa := by
  induction k with
  | zero => exact Nat.le_refl _
  | succ k ih => exact Nat.le_trans (Nat.div_le_self _ _) ih

/-- Rounding adds at most one, when the digits that were dropped are a half or more. -/
theorem roundedMantissa_le (em : ExtendedMantissa) : em.roundedMantissa ≤ em.mantissa + 1 := by
  obtain ⟨m, r, s⟩ := em
  cases r <;> cases s <;>
    simp [ExtendedMantissa.roundedMantissa, ExtendedMantissa.accuracy, Accuracy.roundToNearestEven]
  omega

/-- The exponent that a float of this size is rounded to: it leaves 53 digits, unless it would be
below the least one. -/
theorem targetExponent_eq (m : Nat) (e : Int) :
    Format.binary64.targetExponent (totalExponent m e) = max (m.log2 + 1 + e - 53) (-1074) := rfl

/-- What a shift to the target exponent leaves of the mantissa. -/
theorem shiftToTarget_mantissa_le (m : Nat) (e : Int) :
    (shiftToTargetExponent Format.binary64 m e .exact).1.mantissa ≤ m :=
  shiftRight_mantissa_le _ _

/-- **The exponent after a shift to the target exponent**, as it depends on the number of digits: it
rises by the digits beyond 52, or to the least exponent. -/
theorem shiftToTarget_exponent_le {m digits : Nat} (hm : m < 2 ^ digits) (e : Int) :
    (shiftToTargetExponent Format.binary64 m e .exact).2 ≤
      max (max e (e + digits - 52)) (-1074) := by
  have hlog : m.log2 ≤ digits := by
    rcases Nat.eq_zero_or_pos m with rfl | hpos
    · exact Nat.zero_le _
    · exact Nat.le_of_lt ((Nat.log2_lt (Nat.ne_of_gt hpos)).mpr hm)
  have hshift : (shiftToTargetExponent Format.binary64 m e .exact).2 =
      e + ((Format.binary64.targetExponent (totalExponent m e) - e).toNat : Int) := rfl
  rw [hshift, targetExponent_eq]
  omega

/-- **Rounding keeps a float modest.** Its mantissa has up to `digits` binary digits before, and one
more after the carry; each of the two shifts raises the exponent by what it drops. -/
theorem modest_round {m digits : Nat} (hm : m < 2 ^ digits) (s : Sign) (e : Int) {bound : Int}
    (hbound : max e (e + digits - 52) + digits ≤ bound) (hleast : -1074 + (digits : Int) ≤ bound) :
    Modest bound (roundWithAccuracy Format.binary64 s m e .exact) := by
  have hfirst := shiftToTarget_exponent_le hm e
  -- the carry makes the mantissa longer by one digit, and then it is shifted once more
  have hcarry : (shiftToTargetExponent Format.binary64 m e .exact).1.roundedMantissa <
      2 ^ (digits + 1) := by
    have hone := Nat.one_le_two_pow (n := digits)
    have hround := roundedMantissa_le (shiftToTargetExponent Format.binary64 m e .exact).1
    have hdrop := shiftToTarget_mantissa_le m e
    omega
  have hsecond := shiftToTarget_exponent_le hcarry
    (shiftToTargetExponent Format.binary64 m e .exact).2
  unfold roundWithAccuracy
  dsimp only
  -- a number that is rounded to nothing is a zero
  by_cases hzero : (shiftToTargetExponent Format.binary64
      (shiftToTargetExponent Format.binary64 m e .exact).1.roundedMantissa
      (shiftToTargetExponent Format.binary64 m e .exact).2 .exact).1.mantissa = 0
  · rw [dif_pos hzero]
    exact .zero s
  · rw [dif_neg hzero]
    exact .finite (by omega)

/-! ### Packing -/

/-- **What bits are unpacked to.** The greatest exponent is kept for the floats that are not finite,
and the least one for zero and for the numbers whose mantissa has no first digit of its own. -/
theorem unpack_cases (b : BitVec Format.binary64.numBits) {motive : UnpackedFloat → Prop}
    (special : unpackExponent b = -1#11 → ∀ u : UnpackedFloat, u.isFinite = false → motive u)
    (zero : unpackExponent b = 0#11 → unpackMantissa b = 0#52 →
      motive (.zero (Sign.ofBitVec (unpackSign b))))
    (small : ∀ hm, unpackExponent b = 0#11 → unpackMantissa b ≠ 0#52 →
      motive (.finite (Sign.ofBitVec (unpackSign b)) (unpackMantissa b).toNat (-1074) hm))
    (full : ∀ hm, unpackExponent b ≠ -1#11 → unpackExponent b ≠ 0#11 →
      motive (.finite (Sign.ofBitVec (unpackSign b)) (1#1 ++ unpackMantissa b).toNat
        ((unpackExponent b).toNat - 1075) hm)) :
    motive (UnpackedFloat.unpack Format.binary64 b) := by
  unfold UnpackedFloat.unpack
  dsimp only
  -- what is not finite; what is zero or small; and all the rest
  by_cases hmost : unpackExponent b = -1#11
  · rw [if_pos hmost]
    split <;> exact special hmost _ rfl
  rw [if_neg hmost]
  by_cases hzero : unpackExponent b = 0#11
  · rw [if_pos hzero]
    by_cases hempty : unpackMantissa b = 0#52
    · rw [dif_pos hempty]
      exact zero hzero hempty
    · rw [dif_neg hempty, hzero]
      exact small _ hzero hempty
  · rw [if_neg hzero]
    exact full _ hmost hzero

/-- **The packed exponent decides how large a float is.** The greatest one is kept for the floats
that are not finite, and excluded here. -/
theorem modest_unpack_components (s : Sign) (exponent : BitVec 11) (mantissa : BitVec 52)
    {bound : Int} (hfinite : exponent.toNat < 2047) (hexponent : exponent.toNat - 1075 ≤ bound)
    (hleast : -1074 ≤ bound) :
    Modest bound (UnpackedFloat.unpack Format.binary64
      (packComponents Format.binary64 s exponent mantissa)) := by
  have hpacked : unpackExponent (packComponents Format.binary64 s exponent mantissa) = exponent :=
    unpackExponent_packComponents
  generalize packComponents Format.binary64 s exponent mantissa = b at hpacked ⊢
  subst hpacked
  refine unpack_cases b ?special (fun _ _ => .zero _) (fun _ _ _ => .finite hleast)
    fun _ _ _ => .finite hexponent
  case special =>
    intro hmost
    have hnot : (unpackExponent b).toNat = 2047 := by rw [hmost]; rfl
    omega

/-- **Packing keeps a float modest**, if its exponent is one that can be packed. -/
theorem modest_repack {u : UnpackedFloat} {bound : Int} (h : Modest bound u) (hmost : bound ≤ 971)
    (hleast : -1074 ≤ bound) : Modest bound (pack u).unpack := by
  have hempty : ((0#11).toNat : Int) - 1075 ≤ bound := by
    show (0 : Int) - 1075 ≤ bound
    omega
  cases h with
  | zero s => exact modest_unpack_components s 0 0 (by decide) hempty hleast
  | @finite s m e hm he =>
    show Modest bound (UnpackedFloat.unpack Format.binary64
      (UnpackedFloat.pack Format.binary64 (.finite s m e hm)))
    unfold UnpackedFloat.pack
    dsimp only
    -- the greatest exponent is out of reach, so none of the branches makes an infinity
    have hbiased : (e + Format.binary64.exponentBias + 52).toNat ≤ 2046 := by
      have : (Format.binary64.exponentBias : Int) = 1023 := rfl
      omega
    rw [if_neg (by omega)]
    split
    -- with a first digit of its own, and without one
    · refine modest_unpack_components s _ _ ?_ ?_ hleast
      · rw [BitVec.toNat_ofNat, Nat.mod_eq_of_lt (by omega)]
        omega
      · have : (Format.binary64.exponentBias : Int) = 1023 := rfl
        rw [BitVec.toNat_ofNat, Nat.mod_eq_of_lt (by omega)]
        omega
    · exact modest_unpack_components s 0 _ (by decide) hempty hleast

/-- The mantissa of a float has at most 53 digits: the 52 that are kept, and the first one that is
left out. -/
theorem mantissa_unpack_lt {x : Float.Model} {s : Sign} {m : Nat} {e : Int} {hm : 0 < m}
    (h : x.unpack = .finite s m e hm) : m < 2 ^ 53 := by
  revert h
  refine unpack_cases x.toBits.toBitVec (motive := fun u => u = .finite s m e hm → m < 2 ^ 53)
    ?special ?zero ?small ?full
  case special =>
    rintro - u hu rfl
    exact nomatch hu
  case zero => exact fun _ _ h => nomatch h
  case small =>
    intro _ _ _ h
    obtain ⟨-, rfl, -⟩ := UnpackedFloat.finite.inj h
    exact Nat.lt_trans (BitVec.isLt _) (by decide)
  case full =>
    intro _ _ _ h
    obtain ⟨-, rfl, -⟩ := UnpackedFloat.finite.inj h
    exact BitVec.isLt _

/-- The product of two numbers is rounded once, from a mantissa that is the product of the two. -/
theorem modest_mul_finite (digits : Nat) {s t : Sign} {m n : Nat} {e f bound : Int} {hm : 0 < m}
    {hn : 0 < n} (hmn : m * n < 2 ^ digits)
    (hbound : max (e + f) (e + f + digits - 52) + digits ≤ bound)
    (hleast : -1074 + (digits : Int) ≤ bound) :
    Modest bound (UnpackedFloat.mul Format.binary64 (.finite s m e hm) (.finite t n f hn)) :=
  modest_round hmn (s * t) (e + f) hbound hleast

/-- **A product of modest floats is modest.** The exponents add up, and a mantissa of 106 digits is
rounded. -/
theorem modest_mul {x y : Float.Model} {a b bound : Int} (hx : Modest a x.unpack)
    (hy : Modest b y.unpack) (hbound : a + b + 160 ≤ bound) (hmost : bound ≤ 971)
    (hleast : -968 ≤ bound) : Modest bound (x * y).unpack := by
  refine modest_repack ?_ hmost (by omega)
  show Modest bound (UnpackedFloat.mul Format.binary64 x.unpack y.unpack)
  generalize hxu : x.unpack = u at hx
  generalize hyu : y.unpack = v at hy
  cases hx with
  | zero s => cases hy <;> exact .zero _
  | @finite s m e hm he =>
    cases hy with
    | zero t => exact .zero _
    | @finite t n f hn hf =>
      have hmn : m * n < 2 ^ 106 := by
        calc m * n < 2 ^ 53 * 2 ^ 53 :=
              Nat.mul_lt_mul'' (mantissa_unpack_lt hxu) (mantissa_unpack_lt hyu)
          _ = 2 ^ 106 := by rw [← Nat.pow_add]
      exact modest_mul_finite 106 hmn (by omega) (by omega)

/-! ### Whole numbers -/

/-- A sign does not change how large a float is. -/
theorem Modest.neg {bound : Int} {u : UnpackedFloat} (h : Modest bound u) : Modest bound u.neg := by
  cases h with
  | zero s => exact .zero _
  | finite h => exact .finite h

/-- A natural number of up to 53 digits, as an unpacked float. -/
theorem modest_ofNat {n : Nat} (hn : n < 2 ^ 53) :
    Modest 158 (UnpackedFloat.ofNat Format.binary64 n) := by
  unfold UnpackedFloat.ofNat UnpackedFloat.ofInt UnpackedFloat.normalize
  split
  · next hlt => exact absurd (Int.compare_eq_lt.mp hlt) (by omega)
  · exact .zero _
  · -- at most 52 zeros are put behind the digits before they are rounded
    have hzeros : (0 - Format.binary64.targetExponent (totalExponent n 0)).toNat ≤ 52 := by
      rw [targetExponent_eq]
      omega
    have hdigits : n <<< (0 - Format.binary64.targetExponent (totalExponent n 0)).toNat <
        2 ^ 105 := by
      rw [Nat.shiftLeft_eq]
      calc n * 2 ^ _ < 2 ^ 53 * 2 ^ 52 :=
            Nat.mul_lt_mul_of_lt_of_le hn (Nat.pow_le_pow_right (by decide) hzeros) (by decide)
        _ = 2 ^ 105 := by rw [← Nat.pow_add]
    exact modest_round hdigits .positive _ (by omega) (by omega)

/-- **A natural number that 64 bits hold**, as a float. There are two ways in which it is made, and
in both of them the exponent stays far below the greatest. -/
theorem modest_natFloat {n : Nat} (hn : n < wordBound) :
    Modest 971 (Float.ofNat n).toModel.unpack := by
  show Modest 971 (Float.ofScientific n false 0).toModel.unpack
  unfold Float.ofScientific
  -- a number that 53 bits hold is converted as it is and scaled by 1, any other one is rounded
  split
  · next hsmall =>
    have hone : Modest 0 (Float.ofBits 0x3FF0000000000000).toModel.unpack := by
      have hbits : (Float.ofBits 0x3FF0000000000000).toModel.unpack =
          .finite .positive (2 ^ 52) (-52) (by decide) := by
        rfl
      rw [hbits]
      exact .finite (by decide)
    have hword : Modest 158 n.toUInt64.toFloat.toModel.unpack := by
      have hsame : n.toUInt64.toNat = n :=
        UInt64.toNat_ofNat_of_lt' (Nat.lt_trans hsmall.1 (by decide))
      refine modest_repack ?_ (by omega) (by omega)
      show Modest 158 (UnpackedFloat.ofNat Format.binary64 n.toUInt64.toNat)
      rw [hsame]
      exact modest_ofNat hsmall.1
    exact modest_mul hword hone (by omega) (by omega) (by omega)
  · refine modest_repack ?_ (by omega) (by omega)
    show Modest 971 (UnpackedFloat.ofScientific Format.binary64 n 0)
    unfold UnpackedFloat.ofScientific
    by_cases hzero : n = 0
    · rw [dif_pos hzero]
      exact .zero _
    · rw [dif_neg hzero]
      have hdigits : n <<< Format.binary64.mantissaBits * 10 ^ (0 : Int).toNat < 2 ^ 117 := by
        have hbits : Format.binary64.mantissaBits = 53 := rfl
        have hword : wordBound = 2 ^ 64 := by decide
        rw [hbits, Nat.shiftLeft_eq, Int.toNat_zero, Nat.pow_zero]
        omega
      have hlow : ¬ (0 : Int) < -((2 ^ Format.binary64.exponentBits : Int) + n.log2) := by
        have hbits : Format.binary64.exponentBits = 11 := rfl
        rw [hbits]
        omega
      rw [if_neg (by decide), if_neg hlow, if_pos (by decide)]
      have hbits : Format.binary64.mantissaBits = 53 := rfl
      exact modest_mul_finite 117 hdigits (by rw [hbits]; omega) (by omega)

/-- **A whole number that 64 bits hold has a finite float.** -/
theorem isFinite_ofInt {i : Int} (hlow : -(signedBound : Int) ≤ i) (hhigh : i < wordBound) :
    isFinite (Float.ofInt i) = true := by
  cases i with
  | ofNat n => exact (modest_natFloat (Int.ofNat_lt.mp hhigh)).isFinite
  | negSucc n =>
    have hn : n + 1 < wordBound := by
      have : signedBound < wordBound := by decide
      omega
    exact (modest_repack (modest_natFloat hn).neg (by omega) (by omega)).isFinite

end StagePlay.Number
