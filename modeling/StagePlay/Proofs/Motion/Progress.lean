import StagePlay.Proofs.Motion.Ending
import StagePlay.Proofs.Number.Arithmetic

/-!
# Progress

How far a motion has come is a quotient of two floats, and each of them is a sum of whole seconds and
a rounded fraction. For durations of up to `2 ^ 42` milliseconds all this rounding stays far below a
millisecond: so a longer time has more seconds (`seconds_lt`), progress is a number from 0 to 1
(`progress_bounds`), and it has reached 1 exactly where the time has reached the duration
(`one_le_progress_iff`). So the last frame of a tween is the first one that is due when the duration
has passed (`Tween.isLast_iff`).
-/

namespace StagePlay

open Number

/-! ### Seconds of whole milliseconds -/

/-- The nanoseconds of a second are exactly a float. -/
theorem value_billion : value 1000000000.0 = 1000000000 := by
  show unpackedValue (1000000000.0 : Float).toModel.unpack = _
  rw [unpack_billion, unpackedValue_positive]
  push_cast
  rw [show (-23 : ℤ) = -(23 : ℕ) by rfl, zpow_neg, zpow_natCast]
  norm_num

/-- The part of a second is the exact one, rounded once: its nanoseconds are a float, and so is the
divisor. -/
theorem rounds_subNanos {r : Nat} (hr : r < 1000) :
    Rounds (r / 1000) (Float.ofNat (r * 1000000) / 1000000000.0) := by
  have hlow : (0 : ℚ) ≤ r := Nat.cast_nonneg r
  have hhigh : (r : ℚ) < 1000 := by exact_mod_cast hr
  have hdividend := rounds_natFloat (n := r * 1000000) (by omega)
  have hquotient := rounds_div hdividend.finite (y := 1000000000.0) rfl
    (by rw [value_billion]; norm_num)
  rw [value_natFloat (by omega), value_billion] at hquotient
  have hvalue : ((r * 1000000 : ℕ) : ℚ) / 1000000000 = r / 1000 := by
    push_cast
    rw [div_eq_div_iff (by norm_num) (by norm_num)]
    ring
  rw [hvalue] at hquotient
  refine hquotient (abs_le_of_word ?_)
  rw [abs_of_nonneg (by positivity), div_le_iff₀ (by norm_num)]
  linarith

/-- **The seconds of so many milliseconds**, and how exact they are. There are two roundings, one of
the part of a second and one of the sum, and for up to `2 ^ 42` milliseconds they come to less than
a millionth. -/
theorem seconds_error {j : Nat} (hj : j ≤ 2 ^ 42) :
    isFinite (Duration.ofMillis j).seconds = true ∧
      |value (Duration.ofMillis j).seconds - j / 1000| ≤ 1 / 1000000 := by
  have hwhole : (Duration.ofMillis j).wholeSeconds = j / 1000 := by
    simp only [Duration.wholeSeconds, Duration.ofMillis, Duration.nanosPerMilli, Duration.nanosPerSecond]
    omega
  have hsub : (Duration.ofMillis j).subNanos = j % 1000 * 1000000 := by
    simp only [Duration.subNanos, Duration.ofMillis, Duration.nanosPerMilli, Duration.nanosPerSecond]
    omega
  have hj' : (j : ℚ) = 1000 * (j / 1000 : ℕ) + (j % 1000 : ℕ) := by
    exact_mod_cast (Nat.div_add_mod j 1000).symm
  have hmost : ((j / 1000 : ℕ) : ℚ) + 1 ≤ 2 ^ (33 : ℤ) := by
    have : j / 1000 + 1 ≤ 2 ^ 33 := by omega
    exact_mod_cast this
  have hlow : (0 : ℚ) ≤ (j / 1000 : ℕ) := Nat.cast_nonneg _
  have hrest : ((j % 1000 : ℕ) : ℚ) < 1000 := by exact_mod_cast Nat.mod_lt j (by decide)
  have hrest' : (0 : ℚ) ≤ (j % 1000 : ℕ) := Nat.cast_nonneg _
  -- the part of a second, between 0 and 1
  have hpart := rounds_subNanos (Nat.mod_lt j (by decide : 0 < 1000))
  have hunit : (0 : ℚ) ≤ (j % 1000 : ℕ) / 1000 ∧ ((j % 1000 : ℕ) : ℚ) / 1000 ≤ 1 :=
    ⟨by positivity, by rw [div_le_iff₀ (by norm_num)]; linarith⟩
  have herror := hpart.nearest.error (k := 0) (by decide) (by
    rw [zpow_zero, abs_of_nonneg hunit.1]
    exact hunit.2)
  have hpart' : 0 ≤ value (Float.ofNat (j % 1000 * 1000000) / 1000000000.0) ∧
      value (Float.ofNat (j % 1000 * 1000000) / 1000000000.0) ≤ 1 := by
    have hone : Representable 1 := by exact_mod_cast representable_natCast (n := 1) (by decide)
    have hzero : Representable 0 := by exact_mod_cast representable_natCast (n := 0) (by decide)
    exact ⟨hpart.nearest.ge hzero hunit.1, hpart.nearest.le hone hunit.2⟩
  -- the sum, which stays below `2 ^ 33`
  have hbound : |value (Float.ofNat (j / 1000)) +
      value (Float.ofNat (j % 1000 * 1000000) / 1000000000.0)| ≤ 2 ^ (33 : ℤ) := by
    rw [value_natFloat (by omega), abs_of_nonneg (by linarith)]
    linarith
  have hsum := rounds_add (rounds_natFloat (n := j / 1000) (by omega)).finite hpart.finite
    (hbound.trans (zpow_le_zpow_right₀ one_le_two (by decide)))
  have herror' := hsum.nearest.error (k := 33) (by decide) hbound
  rw [value_natFloat (by omega)] at herror'
  unfold Duration.seconds
  rw [hwhole, hsub]
  refine ⟨hsum.finite, ?_⟩
  -- one error of the part, and one of the sum
  have hsmall : (2 : ℚ) ^ ((33 : ℤ) - 54) + 2 ^ ((0 : ℤ) - 54) ≤ 1 / 1000000 := by norm_num
  have hwhole' : (j : ℚ) / 1000 = (j / 1000 : ℕ) + (j % 1000 : ℕ) / 1000 := by
    rw [hj', div_eq_iff (by norm_num), add_mul, div_mul_cancel₀ _ (by norm_num)]
    ring
  rw [abs_le] at herror herror' ⊢
  constructor <;> linarith [herror.1, herror.2, herror'.1, herror'.2]

/-- **More milliseconds are more seconds**, by almost as much: a millisecond is a thousand times
what rounding may take from it. -/
theorem seconds_lt {i j : Nat} (h : i < j) (hj : j ≤ 2 ^ 42) :
    value (Duration.ofMillis i).seconds + 1 / 2000 ≤ value (Duration.ofMillis j).seconds := by
  have hi := abs_le.mp (seconds_error (h.le.trans hj)).2
  have hj' := abs_le.mp (seconds_error hj).2
  have hgap : (i : ℚ) + 1 ≤ j := by exact_mod_cast h
  linarith [hi.2, hj'.1]

theorem seconds_zero : value (Duration.ofMillis 0).seconds = 0 := rfl

/-- Seconds are not negative, and not too large, so no quotient of them overflows. -/
theorem seconds_bounds {j : Nat} (hj : j ≤ 2 ^ 42) :
    0 ≤ value (Duration.ofMillis j).seconds ∧ value (Duration.ofMillis j).seconds ≤ 2 ^ 33 := by
  have hj' := abs_le.mp (seconds_error hj).2
  have hmost : (j : ℚ) ≤ 2 ^ 42 := by exact_mod_cast hj
  constructor
  · rcases Nat.eq_zero_or_pos j with rfl | hpos
    · exact seconds_zero.ge
    · have := seconds_lt hpos hj
      rw [seconds_zero] at this
      linarith
  · linarith [hj'.2]

/-! ### Progress -/

/-- The quotient of two times is the exact quotient of their seconds, rounded once more. -/
theorem rounds_quotient {elapsed d : Nat} (hd : 0 < d) (hd' : d ≤ 2 ^ 42) (he : elapsed ≤ 2 ^ 42) :
    Rounds (value (Duration.ofMillis elapsed).seconds / value (Duration.ofMillis d).seconds)
      ((Duration.ofMillis elapsed).seconds / (Duration.ofMillis d).seconds) := by
  obtain ⟨hlow, hhigh⟩ := seconds_bounds he
  have hpos := seconds_lt hd hd'
  rw [seconds_zero] at hpos
  refine rounds_div (seconds_error he).1 (seconds_error hd').1 (by linarith) (abs_le_of_word ?_)
  rw [abs_of_nonneg (div_nonneg hlow (by linarith)), div_le_iff₀ (by linarith)]
  linarith

/-- A number that is not negative, clamped to 1, is the lesser of the two, exactly: clamping rounds
nothing. -/
theorem clamp_unit {x : Float} (hx : isFinite x = true) (h : 0 ≤ value x) :
    isFinite (clamp 0.0 1.0 x) = true ∧ value (clamp 0.0 1.0 x) = min 1 (value x) := by
  have hzero : ¬x < 0.0 := by
    rw [lt_iff_value hx isFinite_zero, value_zero]
    exact not_lt.mpr h
  unfold clamp
  rw [if_neg hzero]
  split
  · next hgt =>
    rw [lt_iff_value isFinite_one hx, value_one] at hgt
    exact ⟨isFinite_one, by rw [value_one, min_eq_left hgt.le]⟩
  · next hle =>
    rw [lt_iff_value isFinite_one hx, value_one, not_lt] at hle
    exact ⟨hx, (min_eq_right hle).symm⟩

/-- **Progress is finite**, and the quotient of the times or 1. All further facts about progress are
facts about this quotient. -/
theorem value_progress {elapsed d : Nat} (hd : 0 < d) (hd' : d ≤ 2 ^ 42) (he : elapsed ≤ 2 ^ 42) :
    isFinite (progress (.ofMillis elapsed) (.ofMillis d)) = true ∧
      value (progress (.ofMillis elapsed) (.ofMillis d)) =
        min 1 (value ((Duration.ofMillis elapsed).seconds / (Duration.ofMillis d).seconds)) := by
  have hquotient := rounds_quotient hd hd' he
  have hzero : Representable 0 := by exact_mod_cast representable_natCast (n := 0) (by decide)
  have hnonneg := hquotient.nearest.ge hzero
    (div_nonneg (seconds_bounds he).1 (seconds_bounds hd').1)
  have hsome : Duration.ofMillis d ≠ .zero := fun h => by
    have : d * Duration.nanosPerMilli = 0 := congrArg Duration.nanos h
    simp only [Duration.nanosPerMilli] at this
    omega
  unfold progress
  rw [if_neg hsome]
  exact clamp_unit hquotient.finite hnonneg

/-- **Progress goes from 0 to 1**, both of which are floats and so are kept by rounding. -/
theorem progress_bounds {elapsed d : Nat} (hd : 0 < d) (hd' : d ≤ 2 ^ 42) (he : elapsed ≤ 2 ^ 42) :
    isFinite (progress (.ofMillis elapsed) (.ofMillis d)) = true ∧
      0 ≤ value (progress (.ofMillis elapsed) (.ofMillis d)) ∧
      value (progress (.ofMillis elapsed) (.ofMillis d)) ≤ 1 := by
  have hzero : Representable 0 := by exact_mod_cast representable_natCast (n := 0) (by decide)
  have hnonneg := (rounds_quotient hd hd' he).nearest.ge hzero
    (div_nonneg (seconds_bounds he).1 (seconds_bounds hd').1)
  obtain ⟨hfinite, hvalue⟩ := value_progress hd hd' he
  rw [hvalue]
  exact ⟨hfinite, le_min zero_le_one hnonneg, min_le_left _ _⟩

/-- **Progress has reached 1 exactly where the time has reached the duration.** A time that is a
millisecond short has a quotient that is short of 1 by more than the gap between floats there. -/
theorem one_le_progress_iff {elapsed d : Nat} (hd : 0 < d) (hd' : d ≤ 2 ^ 42)
    (he : elapsed ≤ 2 ^ 42) :
    (1.0 : Float) ≤ progress (.ofMillis elapsed) (.ofMillis d) ↔ d ≤ elapsed := by
  have hone : Representable 1 := by exact_mod_cast representable_natCast (n := 1) (by decide)
  have hquotient := rounds_quotient hd hd' he
  obtain ⟨hfinite, hvalue⟩ := value_progress hd hd' he
  have hpos := seconds_lt hd hd'
  rw [seconds_zero] at hpos
  rw [le_iff_value isFinite_one hfinite, hvalue, value_one, le_min_iff]
  constructor
  · rintro ⟨-, h⟩
    by_contra hlt
    -- a time that falls short by a millisecond falls short by more than rounding makes up for
    have hless := seconds_lt (not_le.mp hlt) hd'
    have hbelow : Representable (1 - 2 ^ (-53 : ℤ)) := by
      have := representable_multiple (n := 2 ^ 53 - 1) (k := -53) (by norm_num) (by decide)
      have heq : ((2 ^ 53 - 1 : ℤ) : ℚ) * 2 ^ (-53 : ℤ) = 1 - 2 ^ (-53 : ℤ) := by norm_num
      rwa [heq] at this
    have hshort := hquotient.nearest.le hbelow (by
      rw [div_le_iff₀ (by linarith)]
      have hsmall : (2 : ℚ) ^ (-53 : ℤ) * 2 ^ 33 ≤ 1 / 2000 := by norm_num
      have hpart := mul_le_mul_of_nonneg_left (seconds_bounds hd').2 (two_zpow_pos (-53)).le
      rw [sub_mul, one_mul]
      exact le_sub_iff_add_le.mpr
        (le_trans (add_le_add_right (hpart.trans hsmall) _) hless))
    have := two_zpow_pos (-53)
    linarith
  -- the exact quotient is 1 or more, and rounding does not bring it below a float
  · intro h
    refine ⟨le_rfl, hquotient.nearest.ge hone ?_⟩
    rw [le_div_iff₀ (by linarith), one_mul]
    rcases h.eq_or_lt with rfl | hlt
    · exact le_rfl
    · linarith [seconds_lt hlt he]

/-! ### Frames -/

namespace Tween

/-- A later frame is not due earlier. -/
theorem offset_mono (t : Tween) {j k : Nat} (h : j ≤ k) : t.offset j ≤ t.offset k :=
  Nat.div_le_div_right (Nat.add_le_add_right (Nat.mul_le_mul_right _ h) _)

/-- The frame after one that is due in time is due a longest wait later at most. This bounds the
times for which the facts about floats have to hold. -/
theorem offset_succ_le (d interval : Duration) (k : Nat) :
    (ofDurations d interval).offset (k + 1) ≤ (ofDurations d interval).offset k + longestWait := by
  have hinterval := (usableInterval_bounds interval).2
  simp only [offset, ofDurations, Duration.ticks, Duration.nanosPerMilli, Nat.succ_mul]
    at hinterval ⊢
  omega

/-- **The last frame** is one that is due when the duration has passed, and not a frame earlier
because of rounding, nor a frame later. -/
theorem isLast_iff {d : Nat} (hd : 0 < d) (hd' : d ≤ 2 ^ 42) {interval : Duration} {k : Nat}
    (hk : (ofDurations (.ofMillis d) interval).offset k ≤ 2 ^ 42) :
    (ofDurations (.ofMillis d) interval).isLast k = true ↔
      d ≤ (ofDurations (.ofMillis d) interval).offset k := by
  unfold isLast
  rw [decide_eq_true_eq]
  exact one_le_progress_iff hd hd' hk

end Tween

end StagePlay
