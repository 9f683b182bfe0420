import Mathlib.Algebra.Order.Field.Power
import Mathlib.Algebra.Order.Ring.Abs
import Mathlib.Tactic.Linarith
import Mathlib.Tactic.Positivity
import Mathlib.Tactic.Ring
import StagePlay.Proofs.Number.Least

/-!
# The values of floats

A finite float stands for a rational number, its `value`. What is unpacked from bits is `Canonical`:
its mantissa has 53 digits, or it has the least exponent. Packing loses nothing of a canonical float
whose exponent fits, and unpacking loses nothing of a finite float.

* `unpack_pack`, `pack_unpack` — packing and unpacking;
* `le_iff_value`, `lt_iff_value` — finite floats are ordered by their values.
-/

namespace StagePlay.Number

open Float.Model Float.Model.UnpackedFloat

/-! ### Canonical floats -/

/-- **A finite float in its one form**: with 53 digits, or with the least exponent. -/
inductive Canonical : UnpackedFloat → Prop
  | zero (s : Sign) : Canonical (.zero s)
  | finite {s : Sign} {m : Nat} {e : Int} {hm : 0 < m} (below : m < 2 ^ 53) (least : -1074 ≤ e)
    (full : 2 ^ 52 ≤ m ∨ e = -1074) : Canonical (.finite s m e hm)

/-- **Bits are unpacked to a canonical float**, if to a finite one: those with the least exponent
have it, and the others have a first digit. -/
theorem canonical_unpackBits (b : BitVec Format.binary64.numBits)
    (h : (UnpackedFloat.unpack Format.binary64 b).isFinite = true) :
    Canonical (UnpackedFloat.unpack Format.binary64 b) := by
  revert h
  refine unpack_cases b (motive := fun u => u.isFinite = true → Canonical u) ?special
    (fun _ _ _ => .zero _) ?small ?full
  case special => exact fun _ u hu h => nomatch hu.symm.trans h
  case small =>
    exact fun _ _ _ _ => .finite (Nat.lt_trans (BitVec.isLt _) (by decide)) (by decide) (.inr rfl)
  case full =>
    intro _ _ hzero _
    -- the implicit digit is the first of 53
    have hpositive : (unpackExponent b).toNat ≠ 0 := fun h => hzero (BitVec.eq_of_toNat_eq h)
    have hfull := log2_implicit (unpackMantissa b)
    refine .finite (BitVec.isLt _) (by omega) (.inl ?_)
    have hlow := Nat.log2_self_le (n := (1#1 ++ unpackMantissa b).toNat) fun h => by
      rw [h] at hfull
      exact absurd hfull (by decide)
    rwa [hfull] at hlow

/-- What is unpacked is canonical, if it is finite. -/
theorem canonical_unpack {x : Float} (h : isFinite x = true) : Canonical x.toModel.unpack :=
  canonical_unpackBits _ h

/-! ### Packing -/

theorem ofBitVec_toBitVec (s : Sign) : Sign.ofBitVec s.toBitVec = s := by
  cases s <;> rfl

theorem toBitVec_ofBitVec (b : BitVec 1) : (Sign.ofBitVec b).toBitVec = b := by
  revert b
  decide

/-- A mantissa of 53 digits without its first one, to which the first one is put back. -/
theorem implicit_ofNat {m : Nat} (hm : 2 ^ 52 ≤ m) (hm' : m < 2 ^ 53) :
    (1#1 ++ BitVec.ofNat 52 m).toNat = m := by
  have hrest : (BitVec.ofNat 52 m).toNat = m - 2 ^ 52 := by
    rw [BitVec.toNat_ofNat]
    omega
  rw [BitVec.toNat_append, hrest]
  show 1 <<< 52 ||| (m - 2 ^ 52) = m
  rw [← Nat.shiftLeft_add_eq_or_of_lt (by omega)]
  omega

/-- What holds of all bits with some parts holds of the bits put together from them. The parts are
found again, so the bits need not be looked at. -/
theorem of_packComponents {s : Sign} {exponent : BitVec 11} {mantissa : BitVec 52}
    {motive : BitVec Format.binary64.numBits → Prop}
    (h : ∀ b, unpackSign b = s.toBitVec → unpackExponent b = exponent → unpackMantissa b = mantissa →
      motive b) : motive (packComponents Format.binary64 s exponent mantissa) :=
  h _ unpackSign_packComponents unpackExponent_packComponents unpackMantissa_packComponents

/-- What is packed with an exponent between the two that are kept for other floats. -/
theorem unpack_components_full (s : Sign) {exponent : BitVec 11} (mantissa : BitVec 52)
    (hzero : exponent ≠ 0#11) (hmost : exponent ≠ -1#11) :
    ∃ hm, UnpackedFloat.unpack Format.binary64 (packComponents Format.binary64 s exponent mantissa) =
      .finite s (1#1 ++ mantissa).toNat (exponent.toNat - 1075) hm := by
  refine of_packComponents (motive := fun b => ∃ hm, UnpackedFloat.unpack Format.binary64 b =
    .finite s (1#1 ++ mantissa).toNat (exponent.toNat - 1075) hm) fun b hsign hexponent hmantissa => ?_
  subst hexponent hmantissa
  -- the other three cases have an exponent that is kept for them
  refine unpack_cases b (motive := fun u => ∃ hm, u = .finite s (1#1 ++ unpackMantissa b).toNat
      ((unpackExponent b).toNat - 1075) hm) (fun h => absurd h hmost) (fun h => absurd h hzero)
    (fun _ h => absurd h hzero) fun hm _ _ => ⟨hm, ?_⟩
  rw [hsign, ofBitVec_toBitVec]

/-- What is packed with the exponent of the smallest floats. -/
theorem unpack_components_small (s : Sign) {mantissa : BitVec 52} (hempty : mantissa ≠ 0#52) :
    ∃ hm, UnpackedFloat.unpack Format.binary64 (packComponents Format.binary64 s 0#11 mantissa) =
      .finite s mantissa.toNat (-1074) hm := by
  refine of_packComponents (motive := fun b => ∃ hm, UnpackedFloat.unpack Format.binary64 b =
    .finite s mantissa.toNat (-1074) hm) fun b hsign hexponent hmantissa => ?_
  subst hmantissa
  refine unpack_cases b (motive := fun u => ∃ hm, u = .finite s (unpackMantissa b).toNat (-1074) hm)
    (fun h => absurd (h.symm.trans hexponent) (by decide)) (fun _ h => absurd h hempty)
    (fun hm _ _ => ⟨hm, ?_⟩) fun _ _ h => absurd hexponent h
  rw [hsign, ofBitVec_toBitVec]

theorem finite_eq {s : Sign} {m n : Nat} {e f : Int} {hm : 0 < m} {hn : 0 < n} (h : m = n)
    (he : e = f) : UnpackedFloat.finite s m e hm = .finite s n f hn := by
  subst h he
  rfl

/-- A mantissa of 53 digits is packed without its first one, which is put back when it is unpacked.
-/
theorem unpack_pack_full (s : Sign) {m : Nat} {e : Int} (hm : 0 < m) (hfull : 2 ^ 52 ≤ m)
    (below : m < 2 ^ 53) (least : -1074 ≤ e) (he : e ≤ 971) :
    UnpackedFloat.unpack Format.binary64 (UnpackedFloat.pack Format.binary64 (.finite s m e hm)) =
      .finite s m e hm := by
  have hbias : (Format.binary64.exponentBias : Int) = 1023 := rfl
  have hlog : m.log2 = 52 := (Nat.log2_eq_iff (by omega)).mpr ⟨hfull, below⟩
  have hexponent : (BitVec.ofNat 11
      (e + Format.binary64.exponentBias + (52 : Nat)).toNat).toNat = (e + 1075).toNat := by
    rw [BitVec.toNat_ofNat, Nat.mod_eq_of_lt (by omega)]
    omega
  delta UnpackedFloat.pack
  dsimp only
  rw [if_neg (by omega), hlog, if_pos (by decide)]
  generalize BitVec.ofNat 11 (e + Format.binary64.exponentBias + (52 : Nat)).toNat = exponent
    at hexponent ⊢
  -- the exponent is neither of the two that are kept for other floats
  have hzero : exponent ≠ 0#11 := fun h => by
    rw [h] at hexponent
    have : (0#11).toNat = 0 := rfl
    omega
  have hmost : exponent ≠ -1#11 := fun h => by
    rw [h] at hexponent
    have : (-1#11).toNat = 2047 := rfl
    omega
  obtain ⟨hm', hunpack⟩ := unpack_components_full s (BitVec.ofNat 52 m) hzero hmost
  rw [hunpack]
  exact finite_eq (implicit_ofNat hfull below) (by omega)

/-- A shorter one, which has the least exponent, is packed as it is, with the exponent that is kept
for these. -/
theorem unpack_pack_small (s : Sign) {m : Nat} (hm : 0 < m) (hshort : m < 2 ^ 52) :
    UnpackedFloat.unpack Format.binary64
        (UnpackedFloat.pack Format.binary64 (.finite s m (-1074) hm)) =
      .finite s m (-1074) hm := by
  have hbias : (Format.binary64.exponentBias : Int) = 1023 := rfl
  have hlog : m.log2 < 52 := (Nat.log2_lt (by omega)).mpr hshort
  have hmantissa : (BitVec.ofNat 52 m).toNat = m := by
    rw [BitVec.toNat_ofNat]
    omega
  delta UnpackedFloat.pack
  dsimp only
  rw [if_neg (by omega), if_neg (by have : Format.binary64.mantissaBits = 53 := rfl; omega)]
  have hempty : BitVec.ofNat 52 m ≠ 0#52 := fun h => by
    rw [h] at hmantissa
    have : (0#52).toNat = 0 := rfl
    omega
  obtain ⟨hm', hunpack⟩ := unpack_components_small s hempty
  rw [hunpack]
  exact finite_eq hmantissa rfl

/-- **Packing loses nothing** of a canonical float with an exponent that fits. Whether it has 53
digits decides between the two ways of packing. -/
theorem unpack_pack {u : UnpackedFloat} (hu : Canonical u)
    (hfits : ∀ s m e hm, u = .finite s m e hm → e ≤ 971) : (pack u).unpack = u := by
  cases hu with
  | zero s => cases s <;> rfl
  | @finite s m e hm below least full =>
    by_cases hfull : 2 ^ 52 ≤ m
    · exact unpack_pack_full s hm hfull below least (hfits s m e hm rfl)
    · obtain rfl : e = -1074 := full.resolve_left hfull
      exact unpack_pack_small s hm (Nat.lt_of_not_le hfull)

/-- The bits of a float, put together from their parts. -/
theorem packComponents_unpack (b : BitVec Format.binary64.numBits) :
    packComponents Format.binary64 (Sign.ofBitVec (unpackSign b)) (unpackExponent b)
      (unpackMantissa b) = b := by
  unfold packComponents
  rw [toBitVec_ofBitVec]
  unfold unpackSign unpackExponent unpackMantissa BitVec.extractLsb
  ext i hi
  grind

/-- A mantissa without its first digit is told by its length. -/
theorem pack_unpack_small {b : BitVec Format.binary64.numBits} (hm : 0 < (unpackMantissa b).toNat)
    (hzero : unpackExponent b = 0#11) :
    UnpackedFloat.pack Format.binary64
      (.finite (Sign.ofBitVec (unpackSign b)) (unpackMantissa b).toNat (-1074) hm) = b := by
  have hbias : (Format.binary64.exponentBias : Int) = 1023 := rfl
  have hwhole := packComponents_unpack b
  rw [hzero] at hwhole
  have hshort : (unpackMantissa b).toNat < 2 ^ 52 := (unpackMantissa b).isLt
  have hlog := (Nat.log2_lt (Nat.ne_of_gt hm)).mpr hshort
  delta UnpackedFloat.pack
  dsimp only
  rw [if_neg (by omega), if_neg (by have : Format.binary64.mantissaBits = 53 := rfl; omega),
    BitVec.ofNat_toNat, BitVec.setWidth_eq]
  exact hwhole

/-- The first digit of any other mantissa is left out. -/
theorem pack_unpack_full {b : BitVec Format.binary64.numBits}
    (hm : 0 < (1#1 ++ unpackMantissa b).toNat) (hmost : unpackExponent b ≠ -1#11)
    (hzero : unpackExponent b ≠ 0#11) :
    UnpackedFloat.pack Format.binary64 (.finite (Sign.ofBitVec (unpackSign b))
      (1#1 ++ unpackMantissa b).toNat ((unpackExponent b).toNat - 1075) hm) = b := by
  have hbias : (Format.binary64.exponentBias : Int) = 1023 := rfl
  have hwhole := packComponents_unpack b
  have hlow : (unpackExponent b).toNat ≠ 0 := fun h => hzero (BitVec.eq_of_toNat_eq h)
  have hhigh : (unpackExponent b).toNat ≠ 2047 := fun h => hmost (BitVec.eq_of_toNat_eq h)
  have hbound : (unpackExponent b).toNat < 2048 := (unpackExponent b).isLt
  have hexponent : ((unpackExponent b).toNat - (1075 : Int) + Format.binary64.exponentBias +
      (52 : Nat)).toNat = (unpackExponent b).toNat := by omega
  -- the implicit digit is the 53rd one, and only 52 are kept
  have hmantissa : BitVec.ofNat 52 (1#1 ++ unpackMantissa b).toNat = unpackMantissa b := by
    refine BitVec.eq_of_toNat_eq ?_
    rw [BitVec.toNat_ofNat, BitVec.toNat_append]
    have hshort : (unpackMantissa b).toNat < 2 ^ 52 := (unpackMantissa b).isLt
    show (1 <<< 52 ||| (unpackMantissa b).toNat) % 2 ^ 52 = _
    rw [← Nat.shiftLeft_add_eq_or_of_lt hshort]
    omega
  delta UnpackedFloat.pack
  dsimp only
  rw [hexponent, if_neg (by omega), log2_implicit, if_pos (by decide), hmantissa,
    BitVec.ofNat_toNat, BitVec.setWidth_eq]
  exact hwhole

/-- **Unpacking loses nothing** of bits that stand for a finite float. The cases are those of
`unpack_cases`. -/
theorem pack_unpackBits (b : BitVec Format.binary64.numBits)
    (h : (UnpackedFloat.unpack Format.binary64 b).isFinite = true) :
    UnpackedFloat.pack Format.binary64 (UnpackedFloat.unpack Format.binary64 b) = b := by
  revert h
  refine unpack_cases b
    (motive := fun u => u.isFinite = true → UnpackedFloat.pack Format.binary64 u = b)
    ?special ?zero ?small ?full
  case special => exact fun _ u hu h => nomatch hu.symm.trans h
  case zero =>
    intro hzero hempty _
    have hwhole := packComponents_unpack b
    rw [hzero, hempty] at hwhole
    exact hwhole
  case small => exact fun hm hzero _ _ => pack_unpack_small hm hzero
  case full => exact fun hm hmost hzero _ => pack_unpack_full hm hmost hzero

/-- **A finite float is what it was unpacked to**, packed again. -/
theorem pack_unpack {x : Float.Model} (h : x.unpack.isFinite = true) : pack x.unpack = x := by
  obtain ⟨bits, valid⟩ := x
  rw [Float.Model.mk.injEq]
  show UInt64.ofBitVec (UnpackedFloat.pack Format.binary64
    (UnpackedFloat.unpack Format.binary64 bits.toBitVec)) = bits
  rw [pack_unpackBits _ h]

/-! ### Values -/

/-- The value of an unpacked float, 0 where it has none. The two zeros have the same value, and are
told apart only by what they are unpacked to. -/
def unpackedValue : UnpackedFloat → ℚ
  | .finite s m e _ => (s.apply m : ℚ) * 2 ^ e
  | _ => 0

/-- **The value of a float**, 0 where it has none. -/
def value (x : Float) : ℚ := unpackedValue x.toModel.unpack

theorem two_zpow_pos (e : Int) : (0 : ℚ) < 2 ^ e := zpow_pos (by norm_num) e

/-- Of two canonical floats, the one with the smaller exponent is smaller: the other one has 53
digits, as its exponent is not the least. -/
theorem magnitude_lt_of_exponent_lt {m n : Nat} {e f : Int} (hm : m < 2 ^ 53) (he : -1074 ≤ e)
    (hn : 2 ^ 52 ≤ n ∨ f = -1074) (h : e < f) : (m : ℚ) * 2 ^ e < n * 2 ^ f := by
  have hfull : 2 ^ 52 ≤ n := hn.resolve_right (by omega)
  calc (m : ℚ) * 2 ^ e < 2 ^ 53 * 2 ^ e :=
        mul_lt_mul_of_pos_right (by exact_mod_cast hm) (two_zpow_pos e)
    _ = 2 ^ 52 * 2 ^ (e + 1) := by
        rw [zpow_add₀ (by norm_num), zpow_one]
        ring
    _ ≤ 2 ^ 52 * 2 ^ f :=
        mul_le_mul_of_nonneg_left (zpow_le_zpow_right₀ (by norm_num) (by omega)) (by norm_num)
    _ ≤ n * 2 ^ f := mul_le_mul_of_nonneg_right (by exact_mod_cast hfull) (two_zpow_pos f).le

/-- **Canonical floats compare by exponent and mantissa** as their magnitudes do. Mantissas count
only where the exponents are the same. -/
theorem compare_magnitude {m n : Nat} {e f : Int} (hm : m < 2 ^ 53) (hn : n < 2 ^ 53)
    (he : -1074 ≤ e) (hf : -1074 ≤ f) (hm' : 2 ^ 52 ≤ m ∨ e = -1074) (hn' : 2 ^ 52 ≤ n ∨ f = -1074) :
    (compare e f).then (compare m n) = cmp ((m : ℚ) * 2 ^ e) (n * 2 ^ f) := by
  -- first the exponents, and then the mantissas
  rcases lt_trichotomy e f with h | rfl | h
  · rw [Int.compare_eq_lt.mpr h]
    exact (cmp_eq_lt_iff _ _).mpr (magnitude_lt_of_exponent_lt hm he hn' h) |>.symm
  · rw [Int.compare_eq_eq.mpr rfl]
    show compare m n = _
    rcases lt_trichotomy m n with h | rfl | h
    · rw [Nat.compare_eq_lt.mpr h]
      exact ((cmp_eq_lt_iff _ _).mpr
        (mul_lt_mul_of_pos_right (by exact_mod_cast h) (two_zpow_pos e))).symm
    · rw [Nat.compare_eq_eq.mpr rfl, cmp_self_eq_eq]
    · rw [Nat.compare_eq_gt.mpr h]
      exact ((cmp_eq_gt_iff _ _).mpr
        (mul_lt_mul_of_pos_right (by exact_mod_cast h) (two_zpow_pos e))).symm
  · rw [Int.compare_eq_gt.mpr h]
    exact (cmp_eq_gt_iff _ _).mpr (magnitude_lt_of_exponent_lt hn hf hm' h) |>.symm

theorem unpackedValue_positive {m : Nat} {e : Int} (hm : 0 < m) :
    unpackedValue (.finite .positive m e hm) = m * 2 ^ e := rfl

theorem unpackedValue_negative {m : Nat} {e : Int} (hm : 0 < m) :
    unpackedValue (.finite .negative m e hm) = -(m * 2 ^ e) := by
  show ((-(m : Int) : Int) : ℚ) * 2 ^ e = _
  rw [Int.cast_neg, Int.cast_natCast, neg_mul]

theorem zero_lt_unpackedValue {m : Nat} {e : Int} (hm : 0 < m) :
    0 < unpackedValue (.finite .positive m e hm) := by
  rw [unpackedValue_positive]
  exact mul_pos (by exact_mod_cast hm) (two_zpow_pos e)

theorem unpackedValue_lt_zero {m : Nat} {e : Int} (hm : 0 < m) :
    unpackedValue (.finite .negative m e hm) < 0 := by
  rw [unpackedValue_negative]
  exact neg_lt_zero.mpr (zero_lt_unpackedValue hm)

/-- **Canonical floats are ordered by their values.** Zeros and signs are compared first, and
magnitudes where the signs are the same. -/
theorem compare_eq_cmp {u v : UnpackedFloat} (hu : Canonical u) (hv : Canonical v) :
    u.compare v = some (cmp (unpackedValue u) (unpackedValue v)) := by
  have hless : ∀ {x y : ℚ}, x < y → some Ordering.lt = some (cmp x y) := fun h =>
    congrArg some ((cmp_eq_lt_iff _ _).mpr h).symm
  have hgreater : ∀ {x y : ℚ}, y < x → some Ordering.gt = some (cmp x y) := fun h =>
    congrArg some ((cmp_eq_gt_iff _ _).mpr h).symm
  cases hu with
  | zero s =>
    cases hv with
    | zero t => rfl
    | @finite t n f hn =>
      cases t with
      | positive => exact hless (zero_lt_unpackedValue hn)
      | negative => exact hgreater (unpackedValue_lt_zero hn)
  | @finite s m e hm below least full =>
    cases hv with
    | zero t =>
      cases s with
      | positive => exact hgreater (zero_lt_unpackedValue hm)
      | negative => exact hless (unpackedValue_lt_zero hm)
    | @finite t n f hn below' least' full' =>
      have hsame := compare_magnitude below below' least least' full full'
      cases s with
      | positive =>
        cases t with
        | positive => exact congrArg some hsame
        | negative => exact hgreater ((unpackedValue_lt_zero hn).trans (zero_lt_unpackedValue hm))
      | negative =>
        cases t with
        | positive => exact hless ((unpackedValue_lt_zero hm).trans (zero_lt_unpackedValue hn))
        | negative =>
          -- among negative numbers the one of the greater magnitude is the smaller
          show some ((compare e f).then (compare m n)).swap = _
          rw [hsame, cmp_swap, unpackedValue_negative, unpackedValue_negative, ← neg_one_mul,
            ← neg_one_mul ((n : ℚ) * 2 ^ f), cmp_mul_neg_left neg_one_lt_zero]

section Order

variable {x y : Float} (hx : isFinite x = true) (hy : isFinite y = true)

include hx hy

/-- **Finite floats are ordered by their values.** The two zeros have one value, and neither is
below the other. -/
theorem lt_iff_value : x < y ↔ value x < value y := by
  rw [lt_iff_unpack]
  show (x.toModel.unpack.compare y.toModel.unpack == some .lt) = true ↔ _
  rw [compare_eq_cmp (canonical_unpack hx) (canonical_unpack hy), beq_iff_eq, Option.some.injEq,
    cmp_eq_lt_iff]
  rfl

/-- What is not above is not above in value, either. -/
theorem le_iff_value : x ≤ y ↔ value x ≤ value y := by
  rw [le_iff_unpack]
  show (x.toModel.unpack.compare y.toModel.unpack).any (·.isLE) = true ↔ _
  rw [compare_eq_cmp (canonical_unpack hx) (canonical_unpack hy)]
  show (cmp (value x) (value y)).isLE = true ↔ _
  rcases lt_trichotomy (value x) (value y) with h | h | h
  · rw [(cmp_eq_lt_iff _ _).mpr h]
    exact iff_of_true rfl h.le
  · rw [h, cmp_self_eq_eq]
    exact iff_of_true rfl le_rfl
  · rw [(cmp_eq_gt_iff _ _).mpr h]
    exact iff_of_false (by decide) h.not_ge

end Order

end StagePlay.Number
