import Mathlib.Data.Rat.Floor
import StagePlay.Proofs.Number.Rounding

/-!
# Arithmetic of floats

What the operations make of finite floats, said of their values: the result is finite and nearest to
the exact one, as long as that is not beyond `2 ^ 1023`. From this follows how far a sum can get
(`Within.add`): a step that is small enough against a power of two does not lead beyond it, as it is
rounded away at the latest when the power is reached.

* `Rounds` — a finite float that is a number rounded;
* `rounds_add`, `rounds_sub`, `rounds_mul`, `rounds_div` — the operations;
* `value_natFloat`, `rounds_ofInt` — whole numbers;
* `Within` — floats that are finite and not beyond a power of two;
* `add_zero_eq`, `sub_self_eq` — what leaves a float exactly as it is;
* `add_ne_negativeZero` — no sum is the negative zero unless both summands are.
-/

namespace StagePlay.Number

open Float.Model Float.Model.UnpackedFloat

/-- **`x` is `v` rounded**: it is finite, and nearest to `v` among the numbers that floats can stand
for. -/
structure Rounds (v : ℚ) (x : Float) : Prop where
  finite : isFinite x = true
  nearest : Nearest v (value x)

theorem Canonical.isFinite {u : UnpackedFloat} (h : Canonical u) : u.isFinite = true := by
  cases h <;> rfl

/-- **What is below `2 ^ 1024` has an exponent that fits.** With a greater exponent and 53 digits it
would not be below. -/
theorem Canonical.fits {u : UnpackedFloat} (h : Canonical u) (hu : |unpackedValue u| < 2 ^ (1024 : ℤ))
    (s : Sign) (m : Nat) (e : Int) (hm : 0 < m) (heq : u = .finite s m e hm) : e ≤ 971 := by
  subst heq
  have hmagnitude : (m : ℚ) * 2 ^ e < 2 ^ (1024 : ℤ) := by
    cases s with
    | positive => exact (le_abs_self _).trans_lt hu
    | negative =>
      rw [unpackedValue_negative, abs_neg] at hu
      exact (le_abs_self _).trans_lt hu
  cases h with
  | finite below least full =>
    rcases full with hfull | rfl
    · by_contra hgt
      have hfull' : (2 : ℚ) ^ (52 : ℤ) ≤ m := by exact_mod_cast hfull
      have hlarge : (2 : ℚ) ^ (1024 : ℤ) ≤ m * 2 ^ e := by
        calc (2 : ℚ) ^ (1024 : ℤ) = 2 ^ (52 : ℤ) * 2 ^ (972 : ℤ) := by
              rw [← zpow_add₀ two_ne_zero]
              rfl
          _ ≤ m * 2 ^ e := mul_le_mul hfull' (zpow_le_zpow_right₀ one_le_two (by omega))
              (two_zpow_pos _).le (Nat.cast_nonneg m)
      exact absurd hmagnitude (not_lt.mpr hlarge)
    · decide

/-- **A rounded float that fits** keeps its value when it is packed. -/
theorem Rounded.rounds_of_fits {v : ℚ} {u : UnpackedFloat} (h : Rounded v u)
    (hu : |unpackedValue u| < 2 ^ (1024 : ℤ)) : Rounds v ⟨pack u⟩ := by
  have hunpack : (pack u).unpack = u := unpack_pack h.canonical (h.canonical.fits hu)
  refine ⟨?_, ?_⟩
  · show (pack u).unpack.isFinite = true
    rw [hunpack]
    exact h.canonical.isFinite
  · show Nearest v (unpackedValue (pack u).unpack)
    rw [hunpack]
    exact h.nearest

/-- What is not beyond `2 ^ 1023` is not rounded beyond it, since that power is a float. -/
theorem Rounded.below {v : ℚ} {u : UnpackedFloat} (h : Rounded v u) (hv : |v| ≤ 2 ^ (1023 : ℤ)) :
    |unpackedValue u| < 2 ^ (1024 : ℤ) := by
  have hwithin := h.nearest.within (representable_two_zpow (by decide)) hv
  exact hwithin.trans_lt (zpow_lt_zpow_right₀ one_lt_two (by decide))

/-- What is not beyond `2 ^ 1023` is rounded to a float. The bound is not sharp, but no number here
comes anywhere near it. -/
theorem Rounded.rounds {v : ℚ} {u : UnpackedFloat} (h : Rounded v u) (hv : |v| ≤ 2 ^ (1023 : ℤ)) :
    Rounds v ⟨pack u⟩ := h.rounds_of_fits (h.below hv)

/-! ### Operations -/

section Operations

variable {x y : Float} (hx : isFinite x = true) (hy : isFinite y = true)

include hx hy

/-- **A sum**, a difference, a product and a quotient of finite floats is the exact result rounded,
if that is not too large. -/
theorem rounds_add (h : |value x + value y| ≤ 2 ^ (1023 : ℤ)) : Rounds (value x + value y) (x + y) :=
  (rounded_add (canonical_unpack hx) (canonical_unpack hy)).rounds h

theorem rounds_sub (h : |value x - value y| ≤ 2 ^ (1023 : ℤ)) : Rounds (value x - value y) (x - y) :=
  (rounded_sub (canonical_unpack hx) (canonical_unpack hy)).rounds h

theorem rounds_mul (h : |value x * value y| ≤ 2 ^ (1023 : ℤ)) : Rounds (value x * value y) (x * y) :=
  (rounded_mul (canonical_unpack hx) (canonical_unpack hy)).rounds h

theorem rounds_div (hne : value y ≠ 0) (h : |value x / value y| ≤ 2 ^ (1023 : ℤ)) :
    Rounds (value x / value y) (x / y) :=
  (rounded_div (canonical_unpack hx) (canonical_unpack hy) hne).rounds h

omit hy in
/-- To change a sign is exact, so this is rounding in name only. -/
theorem rounds_neg (h : |value x| ≤ 2 ^ (1023 : ℤ)) : Rounds (-value x) (-x) :=
  (canonical_unpack hx).rounded.neg.rounds (by rwa [← abs_neg] at h)

end Operations

/-! ### Whole numbers -/

theorem isFinite_one : isFinite 1.0 = true := rfl

theorem value_one : value 1.0 = 1 := by
  show ((2 ^ 52 : ℕ) : ℚ) * 2 ^ (-52 : ℤ) = 1
  norm_num

/-- What is no larger than a word is not too large for a float. -/
theorem abs_le_of_word {v : ℚ} (h : |v| ≤ 2 ^ 64) : |v| ≤ 2 ^ (1023 : ℤ) := by
  have hpow : (2 : ℚ) ^ (64 : ℤ) ≤ 2 ^ (1023 : ℤ) := zpow_le_zpow_right₀ one_le_two (by decide)
  exact h.trans hpow

/-- **A natural number** of up to 53 digits has a float of its own, which is what it is read as. -/
theorem rounds_natFloat {n : Nat} (hn : n < 2 ^ 53) : Rounds n (Float.ofNat n) := by
  have hword : ((n : ℕ) : ℚ) < 2 ^ 53 := by exact_mod_cast hn
  have hbound : |(n : ℚ)| ≤ 2 ^ (1023 : ℤ) := by
    refine abs_le_of_word ?_
    rw [abs_of_nonneg (Nat.cast_nonneg n)]
    linarith
  have hsame : n.toUInt64.toNat = n :=
    UInt64.toNat_ofNat_of_lt' (Nat.lt_trans hn (by decide))
  -- so few digits are read exactly, as a word times the zeroth power of ten
  have hread : Float.ofNat n = n.toUInt64.toFloat * 1.0 := by
    show Float.ofScientific n false 0 = _
    unfold Float.ofScientific
    rw [dif_pos ⟨hn, by decide⟩]
    rfl
  -- a word of so few digits is converted without loss, and so is its product with one
  have hfloat : Rounds n n.toUInt64.toFloat := by
    have hrounded := rounded_normalize n.toUInt64.toNat 0 .positive
    rw [zpow_zero, mul_one, hsame] at hrounded
    refine (Rounded.rounds (u := UnpackedFloat.ofNat Format.binary64 n.toUInt64.toNat) ?_ hbound)
    rw [hsame]
    exact_mod_cast hrounded
  have hvalue := hfloat.nearest.eq (representable_natCast hn)
  have hproduct := rounds_mul hfloat.finite isFinite_one
  rw [hvalue, value_one, mul_one] at hproduct
  rw [hread]
  exact hproduct hbound

theorem value_natFloat {n : Nat} (hn : n < 2 ^ 53) : value (Float.ofNat n) = n :=
  (rounds_natFloat hn).nearest.eq (representable_natCast hn)

/-- **A whole number** of up to 53 digits has a float of its own. -/
theorem rounds_ofInt {i : ℤ} (hi : |i| < 2 ^ 53) : Rounds i (Float.ofInt i) := by
  cases i with
  | ofNat n =>
    have hn : n < 2 ^ 53 := Int.ofNat_lt.mp ((le_abs_self _).trans_lt hi)
    exact rounds_natFloat hn
  | negSucc n =>
    have hn : n + 1 < 2 ^ 53 := Int.ofNat_lt.mp ((neg_le_abs _).trans_lt hi)
    have hpositive := rounds_natFloat hn
    have hvalue := value_natFloat hn
    have hneg := rounds_neg hpositive.finite (by
      rw [hvalue]
      refine abs_le_of_word ?_
      rw [abs_of_nonneg (Nat.cast_nonneg _)]
      have : ((n + 1 : ℕ) : ℚ) < 2 ^ 53 := by exact_mod_cast hn
      linarith)
    rw [hvalue] at hneg
    have hcast : ((Int.negSucc n : ℤ) : ℚ) = -((n + 1 : ℕ) : ℚ) := by
      rw [Int.cast_negSucc]
    rw [hcast]
    exact hneg

/-! ### How far rounding leads -/

/-- A power of two as so many units, as they are just above it. -/
theorem two_zpow_eq (k : ℤ) : (2 : ℚ) ^ k = 2 ^ 52 * 2 ^ (k - 52) := by
  rw [← zpow_natCast, ← zpow_add₀ two_ne_zero]
  congr 1
  push_cast
  ring

/-- A power of two as so many units, as they are just below it. -/
theorem two_zpow_eq_mul (k : ℤ) : (2 : ℚ) ^ k = 2 ^ 53 * 2 ^ (k - 53) := by
  rw [← zpow_natCast, ← zpow_add₀ two_ne_zero]
  congr 1
  push_cast
  ring

theorem two_zpow_succ (k : ℤ) : (2 : ℚ) ^ (k + 1) = 2 * 2 ^ k := by
  rw [zpow_add₀ two_ne_zero, zpow_one, mul_comm]

/-- **So many multiples of a power of two can be represented.** Were it not for the last one, they
would be so by definition; that one is a power of two itself. -/
theorem representable_multiple {n k : ℤ} (hn : |n| ≤ 2 ^ 53) (hk : -1074 ≤ k) :
    Representable (n * 2 ^ k) := by
  rcases hn.lt_or_eq with hlt | heq
  · exact ⟨n, k, hlt, hk, rfl⟩
  · have hpower : (2 ^ 53 : ℚ) * 2 ^ k = 2 ^ (k + 53) := by
      rw [zpow_add₀ two_ne_zero, mul_comm, zpow_ofNat]
    have hrepresentable := representable_two_zpow (by omega : -1074 ≤ k + 53)
    rcases (abs_eq (by norm_num)).mp heq with rfl | rfl
    · rw [Int.cast_pow, Int.cast_ofNat, hpower]
      exact hrepresentable
    · rw [Int.cast_neg, Int.cast_pow, Int.cast_ofNat, neg_mul, hpower]
      exact hrepresentable.neg

/-- **The gap above a power of two.** Just above it, floats are the multiples of `2 ^ (k - 52)`, and
the power is one of them. -/
theorem Representable.gap {x : ℚ} (hx : Representable x) {k : ℤ} (h : 2 ^ k < x) :
    2 ^ k + 2 ^ (k - 52) ≤ x := by
  have hpos := two_zpow_pos (k - 52)
  rw [two_zpow_eq k] at h ⊢
  rcases hx.spaced (k - 52) with ⟨n, rfl⟩ | hsmall
  · have hn : (2 : ℚ) ^ 52 < n := lt_of_mul_lt_mul_right h hpos.le
    have hn' : (2 : ℤ) ^ 52 + 1 ≤ n := Int.add_one_le_of_lt (by exact_mod_cast hn)
    have hn'' : (2 : ℚ) ^ 52 + 1 ≤ n := by exact_mod_cast hn'
    calc (2 : ℚ) ^ 52 * 2 ^ (k - 52) + 2 ^ (k - 52) = (2 ^ 52 + 1) * 2 ^ (k - 52) := by ring
      _ ≤ (n : ℚ) * 2 ^ (k - 52) := mul_le_mul_of_nonneg_right hn'' hpos.le
  · exact absurd ((le_abs_self x).trans_lt hsmall) (not_lt.mpr h.le)

/-- **The gap below a power of two**, which is half of the one above it. -/
theorem Representable.gap_below {x : ℚ} (hx : Representable x) {k : ℤ} (h : x < 2 ^ k) :
    x ≤ 2 ^ k - 2 ^ (k - 53) := by
  have hpos := two_zpow_pos (k - 53)
  have hpower := two_zpow_eq_mul k
  rcases hx.spaced (k - 53) with ⟨n, rfl⟩ | hsmall
  · rw [hpower] at h ⊢
    have hn : (n : ℚ) < 2 ^ 53 := lt_of_mul_lt_mul_right h hpos.le
    have hn' : n ≤ (2 : ℤ) ^ 53 - 1 := Int.le_sub_one_of_lt (by exact_mod_cast hn)
    have hn'' : (n : ℚ) ≤ 2 ^ 53 - 1 := by exact_mod_cast hn'
    calc (n : ℚ) * 2 ^ (k - 53) ≤ (2 ^ 53 - 1) * 2 ^ (k - 53) :=
          mul_le_mul_of_nonneg_right hn'' hpos.le
      _ = 2 ^ 53 * 2 ^ (k - 53) - 2 ^ (k - 53) := by ring
  · have hle := (le_abs_self x).trans_lt hsmall
    rw [hpower]
    linarith

namespace Nearest

variable {v x : ℚ}

/-- **A step is rounded away** where it does not lead half-way from a power of two to the next
float. -/
theorem absorbed (h : Nearest v x) (hx : Representable x) {k : ℤ} (hk : -1022 ≤ k)
    (hv : v < 2 ^ k + 2 ^ (k - 53)) : x ≤ 2 ^ k := by
  by_contra hgt
  -- a result above the power would be a whole gap above it, and farther away than the power is
  have hnext := hx.gap (not_le.mp hgt)
  have hhalf : (2 : ℚ) ^ (k - 52) = 2 * 2 ^ (k - 53) := by
    rw [← two_zpow_succ]
    congr 1
    ring
  have hpos := two_zpow_pos (k - 53)
  have hnear := h _ (representable_two_zpow (by omega : -1074 ≤ k))
  rw [abs_of_nonneg (by linarith)] at hnear
  rcases abs_cases ((2 : ℚ) ^ k - v) with ⟨habs, -⟩ | ⟨habs, -⟩ <;> rw [habs] at hnear <;> linarith

/-- **How much rounding changes**, for numbers that are not beyond a power of two: half of the gap
below that power. -/
theorem error (h : Nearest v x) {k : ℤ} (hk : -1021 ≤ k) (hv : |v| ≤ 2 ^ k) :
    |x - v| ≤ 2 ^ (k - 54) := by
  have hpos := two_zpow_pos (k - 53)
  have hpower := two_zpow_eq_mul k
  have hhalf : (2 : ℚ) ^ (k - 53) = 2 * 2 ^ (k - 54) := by
    rw [← two_zpow_succ]
    congr 1
    ring
  -- a multiple of the gap below that power is no farther away than half of it
  obtain ⟨q, hq⟩ : ∃ q, v / 2 ^ (k - 53) = q := ⟨_, rfl⟩
  obtain rfl : v = q * 2 ^ (k - 53) := (div_eq_iff hpos.ne').mp hq
  have hlow := Int.floor_le (q + 1 / 2)
  have hhigh := Int.lt_floor_add_one (q + 1 / 2)
  generalize ⌊q + 1 / 2⌋ = n at hlow hhigh
  rw [abs_mul, abs_of_pos hpos, hpower] at hv
  have hq' : |q| ≤ 2 ^ 53 := le_of_mul_le_mul_right hv hpos
  have hn : |n| ≤ 2 ^ 53 := by
    rw [abs_le] at hq' ⊢
    constructor
    · have : (-2 ^ 53 - 1 : ℚ) < n := by linarith
      have : (-2 ^ 53 - 1 : ℤ) < n := by exact_mod_cast this
      omega
    · have : (n : ℚ) < 2 ^ 53 + 1 := by linarith
      have : n < (2 ^ 53 + 1 : ℤ) := by exact_mod_cast this
      omega
  refine (h _ (representable_multiple hn (by omega : -1074 ≤ k - 53))).trans ?_
  rw [← sub_mul, abs_mul, abs_of_pos hpos]
  have hhalf' : |(n : ℚ) - q| ≤ 1 / 2 := abs_le.mpr ⟨by linarith, by linarith⟩
  calc |(n : ℚ) - q| * 2 ^ (k - 53) ≤ 1 / 2 * 2 ^ (k - 53) :=
        mul_le_mul_of_nonneg_right hhalf' hpos.le
    _ = 2 ^ (k - 54) := by rw [hhalf]; ring

/-- A step is rounded away in either direction, below the power as well as above minus the power. -/
theorem within_of_absorbed (h : Nearest v x) (hx : Representable x) {k : ℤ} (hk : -1022 ≤ k)
    (hv : |v| < 2 ^ k + 2 ^ (k - 53)) : |x| ≤ 2 ^ k := by
  obtain ⟨hlow, hhigh⟩ := abs_lt.mp hv
  refine abs_le.mpr ⟨?_, h.absorbed hx hk hhigh⟩
  have := h.neg.absorbed hx.neg hk (by linarith)
  linarith

end Nearest

/-! ### Floats that are not beyond a power of two -/

/-- **A finite float that is not beyond `2 ^ k`.** -/
structure Within (k : ℤ) (x : Float) : Prop where
  finite : isFinite x = true
  bound : |value x| ≤ 2 ^ k

/-- **A step that is small against the power** does not lead beyond it. So however often such a step
is made, there is a bound to it. -/
theorem Within.add {k : ℤ} {x d : Float} (hx : Within k x) (hk : -1022 ≤ k) (hk' : k ≤ 1022)
    (hd : isFinite d = true) (hd' : |value d| < 2 ^ (k - 53)) : Within k (x + d) := by
  have hsum : |value x + value d| < 2 ^ k + 2 ^ (k - 53) :=
    (abs_add_le _ _).trans_lt (add_lt_add_of_le_of_lt hx.bound hd')
  have hless : (2 : ℚ) ^ (k - 53) ≤ 2 ^ k := zpow_le_zpow_right₀ one_le_two (by omega)
  have hmost : (2 : ℚ) ^ (k + 1) ≤ 2 ^ (1023 : ℤ) := zpow_le_zpow_right₀ one_le_two (by omega)
  rw [two_zpow_succ] at hmost
  have hrounds := rounds_add hx.finite hd (by linarith)
  exact ⟨hrounds.finite,
    hrounds.nearest.within_of_absorbed (representable_value hrounds.finite) hk hsum⟩

/-! ### What leaves a float as it is -/

theorem isFinite_zero : isFinite 0.0 = true := rfl

theorem value_zero : value 0.0 = 0 := rfl

/-- A finite float is told by what it is unpacked to. -/
theorem eq_of_toModel_eq_pack {x y : Float} (hy : isFinite y = true)
    (h : x.toModel = pack y.toModel.unpack) : x = y := by
  rw [pack_unpack hy] at h
  cases x
  cases y
  congr

theorem unpack_zero : (0.0 : Float).toModel.unpack = .zero .positive := by rfl

theorem unpack_negativeZero : (-0.0 : Float).toModel.unpack = .zero .negative := by rfl

theorem unpack_ne_negativeZero {x : Float} (hx : isFinite x = true) (hne : x ≠ -0.0) :
    x.toModel.unpack ≠ .zero .negative := by
  intro h
  refine hne (eq_of_toModel_eq_pack rfl ?_)
  rw [unpack_negativeZero, ← h, pack_unpack hx]

/-- **Adding a zero** leaves every float as it is but the negative zero, which becomes the positive
one if that is what is added. -/
theorem add_zero_eq {x z : Float} {s : Sign} (hx : isFinite x = true) (hne : x ≠ -0.0)
    (hz : z.toModel.unpack = .zero s) : x + z = x := by
  refine eq_of_toModel_eq_pack hx ?_
  show pack (UnpackedFloat.add Format.binary64 x.toModel.unpack z.toModel.unpack) = _
  rw [hz]
  congr 1
  have hcanonical := canonical_unpack hx
  have hnegative := unpack_ne_negativeZero hx hne
  generalize x.toModel.unpack = u at hcanonical hnegative
  cases hcanonical with
  | zero t =>
    cases t with
    | positive => cases s <;> rfl
    | negative => exact absurd rfl hnegative
  | finite => rfl

/-- **A whole number of units** is not rounded to the negative zero: if it is not zero itself, one
unit is nearer to it than zero is. -/
theorem normalize_ne_negativeZero {n : ℤ} {e : Int} (he : -1074 ≤ e) :
    UnpackedFloat.normalize Format.binary64 n e .positive ≠ .zero .negative := by
  intro hzero
  rcases eq_or_ne n 0 with rfl | hn
  · exact nomatch hzero
  have hnearest := (rounded_normalize n e .positive).nearest
  rw [hzero] at hnearest
  -- one unit towards the number is nearer to it than zero is
  have hpos := two_zpow_pos e
  have hunit := hnearest _ (representable_multiple (n := n.sign) (by
    rcases lt_or_gt_of_ne hn with h | h
    · rw [Int.sign_eq_neg_one_of_neg h]
      norm_num
    · rw [Int.sign_eq_one_of_pos h]
      norm_num) he)
  rw [← sub_mul, abs_mul, abs_of_pos hpos] at hunit
  have hzero' : |unpackedValue (.zero .negative) - n * 2 ^ e| = |(n : ℚ)| * 2 ^ e := by
    show |(0 : ℚ) - n * 2 ^ e| = _
    rw [zero_sub, abs_neg, abs_mul, abs_of_pos hpos]
  rw [hzero'] at hunit
  have hunit' : |n| ≤ |n.sign - n| := by exact_mod_cast le_of_mul_le_mul_right hunit hpos
  rcases lt_or_gt_of_ne hn with h | h
  · rw [Int.sign_eq_neg_one_of_neg h, abs_of_neg h, abs_of_nonneg (by omega)] at hunit'
    omega
  · rw [Int.sign_eq_one_of_pos h, abs_of_pos h, abs_of_nonpos (by omega)] at hunit'
    omega

/-- **A sum is the negative zero** only where both summands are. Zeros are added by their signs, and
any other sum is a whole number of units that is rounded. -/
theorem add_ne_negativeZero {x y : Float} (hx : isFinite x = true) (hy : isFinite y = true)
    (hne : x ≠ -0.0) (hbound : |value x + value y| ≤ 2 ^ (1023 : ℤ)) : x + y ≠ -0.0 := by
  intro hsum
  have hcanonical := canonical_unpack hx
  have hcanonical' := canonical_unpack hy
  have hrounded := rounded_add hcanonical hcanonical'
  -- the bound keeps the sum in the format, so packing it loses nothing
  have hunpack : UnpackedFloat.add Format.binary64 x.toModel.unpack y.toModel.unpack =
      .zero .negative := by
    have hpacked := unpack_pack hrounded.canonical (hrounded.canonical.fits (hrounded.below hbound))
    rw [← hpacked, ← unpack_negativeZero, ← hsum]
    rfl
  have hnegative := unpack_ne_negativeZero hx hne
  generalize x.toModel.unpack = u at hcanonical hunpack hnegative
  generalize y.toModel.unpack = v at hcanonical' hunpack
  cases hcanonical with
  | zero s =>
    cases s with
    | negative => exact hnegative rfl
    | positive =>
      cases hcanonical' with
      | zero t => cases t <;> exact nomatch hunpack
      | finite => exact nomatch hunpack
  | finite below least full =>
    cases hcanonical' with
    | zero t => exact nomatch hunpack
    | finite below' least' full' => exact normalize_ne_negativeZero (le_min least least') hunpack

/-- **The difference of a float and itself** is the positive zero, and not rounded. -/
theorem sub_self_eq {x : Float} (hx : isFinite x = true) : x - x = 0.0 := by
  have hcanonical := canonical_unpack hx
  have hzero : UnpackedFloat.sub Format.binary64 x.toModel.unpack x.toModel.unpack =
      .zero .positive := by
    generalize x.toModel.unpack = u at hcanonical
    cases hcanonical with
    | zero s => cases s <;> rfl
    | @finite s m e hm =>
      show UnpackedFloat.normalize Format.binary64 (_ - _) _ .positive = _
      rw [Int.sub_self]
      rfl
  exact congrArg (fun u => (⟨pack u⟩ : Float)) hzero

/-- **A multiple of zero** is a zero, of either sign. -/
theorem zero_mul_unpack {x : Float} (hx : isFinite x = true) :
    ∃ s, (0.0 * x).toModel.unpack = .zero s := by
  have hcanonical := canonical_unpack hx
  have hzero : ∃ s, UnpackedFloat.mul Format.binary64 (.zero .positive) x.toModel.unpack =
      .zero s := by
    generalize x.toModel.unpack = u at hcanonical
    cases hcanonical <;> exact ⟨_, rfl⟩
  obtain ⟨s, hs⟩ := hzero
  refine ⟨s, ?_⟩
  show (pack (UnpackedFloat.mul Format.binary64 (0.0 : Float).toModel.unpack
    x.toModel.unpack)).unpack = _
  rw [unpack_zero, hs]
  cases s <;> rfl

end StagePlay.Number
