import StagePlay.Motion.Basic
import StagePlay.Proofs.Number.Arithmetic

/-!
# On the way between two numbers

A motion shows `start + (goal - start) * t` for a progress `t` below 1, and each of the three
operations rounds. Two things are shown of the result: if the start is the goal then it is that number
itself (`lerp_self`), and if neither end is beyond a power of two then the way between them is not
either (`Within.lerp`). The second one is not obvious, as the difference may be rounded up, and so the
way may lead a little beyond its end; but not so far that the sum would be rounded to a number beyond
the power.
-/

namespace StagePlay.Number

/-- **A way that leads nowhere** stays where it is: the difference is zero, so is any part of it,
and adding zero changes no number but a negative zero. -/
theorem lerp_self {x t : Float} (hx : isFinite x = true) (hne : x ≠ -0.0) (ht : isFinite t = true) :
    lerp x x t = x := by
  unfold lerp
  split
  · rfl
  · obtain ⟨s, hs⟩ := zero_mul_unpack ht
    rw [sub_self_eq hx]
    exact add_zero_eq hx hne hs

section Way

variable {a b d t w : ℚ} {k : ℤ}

/-- A part of a power of two is rounded to less than the power: below it there is a float half a gap
away. -/
theorem lt_of_part_power (hk : -1020 ≤ k) (hmissing : 2 ^ (k - 53) ≤ 2 ^ k - 2 ^ k * t)
    (hw : Nearest (2 ^ k * t) w) : w < 2 ^ k := by
  have hpos := two_zpow_pos (k - 53)
  have hbelow : Representable ((2 ^ 53 - 1 : ℤ) * 2 ^ (k - 53)) :=
    representable_multiple (by norm_num) (by omega)
  have heq : (((2 ^ 53 - 1 : ℤ) : ℚ)) * 2 ^ (k - 53) = 2 ^ k - 2 ^ (k - 53) := by
    rw [two_zpow_eq_mul k]
    push_cast
    ring
  have hle := hw.le hbelow (by rw [heq]; linarith)
  rw [heq] at hle
  linarith

/-- A number between two powers of two is a multiple of the gap there, and of not too large a
factor, so the float below it is one gap away. -/
theorem eq_multiple_of_gap (hd : Representable d) (hlow : 2 ^ k < d) (hhigh : d ≤ 2 ^ (k + 1)) :
    ∃ n : ℤ, |n - 1| ≤ 2 ^ 53 ∧ d = n * 2 ^ (k - 52) := by
  obtain ⟨n, rfl⟩ : ∃ n : ℤ, d = n * 2 ^ (k - 52) := by
    rcases hd.spaced (k - 52) with h | hsmall
    · exact h
    · rw [← two_zpow_eq] at hsmall
      exact absurd ((le_abs_self d).trans_lt hsmall) (not_lt.mpr hlow.le)
  refine ⟨n, ?_, rfl⟩
  rw [two_zpow_eq k] at hlow
  rw [two_zpow_eq_mul (k + 1), show k + 1 - 53 = k - 52 by ring] at hhigh
  have h₁ : (2 : ℚ) ^ 52 < n := lt_of_mul_lt_mul_right hlow (two_zpow_pos _).le
  have h₂ : (n : ℚ) ≤ 2 ^ 53 := le_of_mul_le_mul_right hhigh (two_zpow_pos _)
  have h₁' : (2 : ℤ) ^ 52 < n := by exact_mod_cast h₁
  have h₂' : n ≤ (2 : ℤ) ^ 53 := by exact_mod_cast h₂
  rw [abs_le]
  omega

/-- Anywhere else the next float is a whole gap away, and no nearer to the part than the number is.
So a part that falls short by more than half a gap is rounded to that float or a lower one. -/
theorem lt_of_part_between (hk : -1020 ≤ k) (hd : Representable d) (hlow : 2 ^ k < d)
    (hhigh : d ≤ 2 ^ (k + 1)) (hmissing : 2 ^ (k - 53) < d - d * t) (hw : Nearest (d * t) w) :
    w < d := by
  have hpos := two_zpow_pos (k - 53)
  have hgap : (2 : ℚ) ^ (k - 52) = 2 * 2 ^ (k - 53) := by
    rw [← two_zpow_succ]
    congr 1
    ring
  obtain ⟨n, hn, rfl⟩ := eq_multiple_of_gap hd hlow hhigh
  have hnear := hw _ (representable_multiple hn (by omega : -1074 ≤ k - 52))
  have hnext : ((n - 1 : ℤ) : ℚ) * 2 ^ (k - 52) = n * 2 ^ (k - 52) - 2 * 2 ^ (k - 53) := by
    rw [← hgap]
    push_cast
    ring
  rw [hnext] at hnear
  by_contra hge
  rw [abs_of_nonneg (by linarith)] at hnear
  rcases abs_cases (n * 2 ^ (k - 52) - 2 * 2 ^ (k - 53) - n * 2 ^ (k - 52) * t) with
    ⟨habs, -⟩ | ⟨habs, -⟩ <;> rw [habs] at hnear <;> linarith

/-- **A part of a number** is rounded to less than the number. A progress below 1 falls short of it
by `2 ^ (-53)` at least; of a power of two this is half the gap below it, and of any other number
more than half its gap. -/
theorem lt_of_part (hk : -1020 ≤ k) (hd : Representable d) (hlow : 2 ^ k ≤ d)
    (hhigh : d ≤ 2 ^ (k + 1)) (ht : t < 1) (ht' : Representable t) (hw : Nearest (d * t) w) :
    w < d := by
  -- what is missing of it is at least half a gap
  have ht'' : t ≤ 1 - 2 ^ (-53 : ℤ) := by
    have hbelow := ht'.gap_below (k := 0) (by rwa [zpow_zero])
    rwa [zpow_zero] at hbelow
  have hmissing : d * 2 ^ (-53 : ℤ) ≤ d - d * t := by
    have hd0 : 0 ≤ d := (two_zpow_pos k).le.trans hlow
    have := mul_le_mul_of_nonneg_left ht'' hd0
    linarith
  have hpower : (2 : ℚ) ^ k * 2 ^ (-53 : ℤ) = 2 ^ (k - 53) := by
    rw [← zpow_add₀ two_ne_zero]
    rfl
  -- the gap below a power of two is half as wide as the one above it, so it is a case of its own
  rcases hlow.eq_or_lt with rfl | hlow
  · exact lt_of_part_power hk (hpower.ge.trans hmissing) hw
  · refine lt_of_part_between hk hd hlow hhigh (lt_of_lt_of_le ?_ hmissing) hw
    rw [← hpower]
    exact mul_lt_mul_of_pos_right hlow (two_zpow_pos _)

/-- **The way to a number leads hardly beyond it**, each step rounded. The difference is known with
an error that depends on its size: if it is small the error is, and if it is large the part that is
taken falls short of it by more. -/
theorem way_lt (hk : -1020 ≤ k) (ha : |a| ≤ 2 ^ k) (hb : |b| ≤ 2 ^ k) (hd : Nearest (b - a) d)
    (hd' : Representable d) (ht : 0 ≤ t) (ht' : t < 1) (ht'' : Representable t)
    (hw : Nearest (d * t) w) : a + w < 2 ^ k + 2 ^ (k - 53) := by
  have hpos := two_zpow_pos (k - 53)
  have hzero : Representable 0 := by exact_mod_cast representable_natCast (n := 0) (by decide)
  rcases le_or_gt d 0 with hback | hforth
  · -- the way leads back from `a`
    have hw' : w ≤ 0 := hw.le hzero (mul_nonpos_of_nonpos_of_nonneg hback ht)
    linarith [(abs_le.mp ha).2]
  have hstep : d * t ≤ d := mul_le_of_le_one_right hforth.le ht'.le
  have hw' : w ≤ d := hw.le hd' hstep
  have hb' := (abs_le.mp hb).2
  have ha' := abs_le.mp ha
  rcases lt_or_ge d (2 ^ k) with hshort | hlong
  · -- a short way is known so well that it leads less than half a gap beyond `b`
    have hless : b - a < 2 ^ k := by
      by_contra hge
      exact absurd (hd.ge (representable_two_zpow (by omega)) (not_lt.mp hge)) (not_le.mpr hshort)
    have hmore : 0 < b - a := by
      by_contra hle
      exact absurd (hd.le hzero (not_lt.mp hle)) (not_le.mpr hforth)
    have herror := hd.error (k := k) (by omega) (abs_le.mpr ⟨by linarith, hless.le⟩)
    have hhalf : (2 : ℚ) ^ (k - 54) < 2 ^ (k - 53) := zpow_lt_zpow_right₀ one_lt_two (by omega)
    linarith [(abs_le.mp herror).2]
  · -- a long way falls short of its end before the last step
    have hfar : b - a ≤ 2 ^ (k + 1) := by
      rw [two_zpow_succ]
      linarith
    have hnear : -2 ^ (k + 1) ≤ b - a := by
      rw [two_zpow_succ]
      linarith [(abs_le.mp hb).1]
    have herror := hd.error (k := k + 1) (by omega) (abs_le.mpr ⟨hnear, hfar⟩)
    rw [show k + 1 - 54 = k - 53 by ring] at herror
    have hmost := hd.le (representable_two_zpow (by omega)) hfar
    have hshort := lt_of_part hk hd' hlong hmost ht' ht'' hw
    linarith [(abs_le.mp herror).2]

end Way

/-- **The way between two numbers** that are not beyond a power of two is not either. What the three
roundings may lead beyond the power is less than half a gap, and the sum is rounded back to it. -/
theorem Within.lerp {k : ℤ} {a b t : Float} (ha : Within k a) (hb : Within k b) (hk : -1020 ≤ k)
    (hk' : k ≤ 1022) (ht : isFinite t = true) (ht' : 0 ≤ value t) : Within k (lerp a b t) := by
  unfold StagePlay.lerp
  split
  · exact hb
  next hlast =>
  have hlast' : value t < 1 := by
    rw [le_iff_value isFinite_one ht, value_one] at hlast
    exact not_le.mp hlast
  have hpos := two_zpow_pos k
  have hmost : (2 : ℚ) ^ (k + 1) ≤ 2 ^ (1023 : ℤ) := zpow_le_zpow_right₀ one_le_two (by omega)
  have ha' := abs_le.mp ha.bound
  have hb' := abs_le.mp hb.bound
  have hdistance : |value b - value a| ≤ 2 ^ (k + 1) := by
    rw [two_zpow_succ]
    exact abs_le.mpr ⟨by linarith, by linarith⟩
  have hd := rounds_sub hb.finite ha.finite (hdistance.trans hmost)
  have hd' := hd.nearest.within (representable_two_zpow (by omega)) hdistance
  have hpart : |value (b - a) * value t| ≤ |value (b - a)| := by
    rw [abs_mul, abs_of_nonneg ht']
    exact mul_le_of_le_one_right (abs_nonneg _) hlast'.le
  have hw := rounds_mul hd.finite ht ((hpart.trans hd').trans hmost)
  have hdr := representable_value hd.finite
  have htr := representable_value ht
  -- the way there, and the same way mirrored
  have hhigh := way_lt (by omega) ha.bound hb.bound hd.nearest hdr ht' hlast' htr hw.nearest
  have hmirror : Nearest (-value b - -value a) (-value (b - a)) := by
    have := hd.nearest.neg
    rwa [show -(value b - value a) = -value b - -value a by ring] at this
  have hmirror' : Nearest (-value (b - a) * value t) (-value ((b - a) * t)) := by
    have := hw.nearest.neg
    rwa [← neg_mul] at this
  have hlow := way_lt (a := -value a) (b := -value b) (by omega) (by rw [abs_neg]; exact ha.bound)
    (by rw [abs_neg]; exact hb.bound) hmirror hdr.neg ht' hlast' htr hmirror'
  -- less than half a gap beyond the power in either direction, and that is rounded away
  have hsum : |value a + value ((b - a) * t)| < 2 ^ k + 2 ^ (k - 53) :=
    abs_lt.mpr ⟨by linarith, hhigh⟩
  have hless : (2 : ℚ) ^ (k - 53) ≤ 2 ^ k := zpow_le_zpow_right₀ one_le_two (by omega)
  have hfits : 2 ^ k + 2 ^ (k - 53) ≤ (2 : ℚ) ^ (k + 1) := by
    rw [two_zpow_succ]
    linarith
  have hrounds := rounds_add ha.finite hw.finite (hsum.le.trans (hfits.trans hmost))
  exact ⟨hrounds.finite,
    hrounds.nearest.within_of_absorbed (representable_value hrounds.finite) (by omega) hsum⟩

end StagePlay.Number
