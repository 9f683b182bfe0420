import StagePlay.Proofs.Number.Least
import StagePlay.Routine.Builtin

/-!
# Every motion of the language ends

The last frame of a motion is the first one that shows 1, and what a frame shows is computed with
floats. So that there is a last frame is a fact about floats. The moves and the turns of the
language take less than a second, and whatever the time from frame to frame, a second has passed by
frame 1000: then the seconds that have passed are rounded to a float that is not below 1, and their
quotient by a duration that is below 1 is not below 1 either.

* `Brief.one_le_progress` — the progress of a brief motion is 1 from the first second on;
* `Tween.Ends` — there is a last frame;
* `Tween.ends_move`, `Tween.ends_turn` — the moves and the turns of the language have one.
-/

namespace StagePlay

open Number

/-! ### Seconds -/

/-- The nanoseconds of a second as a float, taken apart: the mantissa is full, and the exponent says
how far it was shifted. -/
theorem unpack_billion : (1000000000.0 : Float).toModel.unpack =
    .finite .positive (1000000000 * 2 ^ 23) (-23) (by decide) := by
  rfl

/-- The part of a second is not negative: a positive number by a positive one, or zero. -/
theorem nonNegative_subNanos {n : Nat} (h : n < Duration.nanosPerSecond) :
    NonNegative (Float.ofNat n / 1000000000.0).toModel.unpack := by
  rcases Nat.eq_zero_or_pos n with rfl | hpos
  · have hbits : (Float.ofNat 0 / 1000000000.0).toModel.unpack = .zero .positive := by rfl
    rw [hbits]
    exact .zero
  · have hnat := (atLeast_natFloat hpos).mono (Int.natCast_nonneg _)
    exact .positive (atLeast_div hnat unpack_billion (by decide) (by decide))

/-- **From `2 ^ k` seconds on**, a duration has at least as many as a float. The whole seconds are
rounded to a float that is not below the power, and adding a part of a second does not make it less.
-/
theorem atLeast_seconds {d : Duration} {k : Nat} (h : 2 ^ k ≤ d.wholeSeconds) :
    AtLeast k d.seconds.toModel.unpack := by
  have hpos : 0 < d.wholeSeconds := Nat.lt_of_lt_of_le (Nat.two_pow_pos k) h
  have hlog := (Nat.le_log2 (Nat.ne_of_gt hpos)).mpr h
  exact atLeast_add ((atLeast_natFloat hpos).mono (by omega))
    (nonNegative_subNanos (Nat.mod_lt _ (by decide))) (by omega)

/-! ### Progress -/

/-- **A duration of less than a second**: as a float it has a full mantissa, and its leading digit
stands behind the point. This is all of the duration that the quotient below depends on. -/
structure Brief (d : Duration) : Prop where
  positive : d ≠ .zero
  below : ∃ n f, ∃ hn : 0 < n, n.log2 = 52 ∧ f ≤ -53 ∧
    d.seconds.toModel.unpack = .finite .positive n f hn

/-- **The progress of a brief motion is 1** from the first second on: the quotient of something not
below 1 by something below it is not below 1, and rounding keeps that, as 1 is a float. -/
theorem Brief.one_le_progress {d elapsed : Duration} (h : Brief d)
    (hpos : 0 < elapsed.wholeSeconds) : (1.0 : Float) ≤ progress elapsed d := by
  obtain ⟨n, f, hn, hfull, hbelow, hseconds⟩ := h.below
  have hquotient := atLeast_div (atLeast_seconds (k := 0) hpos) hseconds hfull (by omega)
  unfold progress
  rw [if_neg h.positive]
  exact one_le_clamp (hquotient.mono (by omega))

theorem brief_move : Brief (.ofMillis Routine.moveTime) where
  positive := by decide
  below := ⟨2 ^ 52, -53, by decide, Nat.log2_two_pow, by decide, by rfl⟩

theorem brief_turn : Brief (.ofMillis Routine.turnTime) where
  positive := by decide
  below := ⟨5404319552844595, -54, by decide, by decide, by decide, by rfl⟩

/-! ### The last frame -/

namespace Tween

/-- **There is a last frame**, so the loop of a motion is over after finitely many ticks. -/
def Ends (t : Tween) : Prop := ∃ k, t.isLast k = true

/-- The time from frame to frame is at least a millisecond, and at most the longest wait, whatever
was asked for. -/
theorem usableInterval_bounds (d : Duration) :
    Duration.nanosPerMilli ≤ (usableInterval d).nanos ∧
      (usableInterval d).nanos ≤ longestWait * Duration.nanosPerMilli := by
  simp only [usableInterval, Duration.ofMillis, Duration.nanosPerMilli, longestWait]
  omega

/-- **A brief motion ends**, whatever the time from frame to frame. Frame 1000 may not be the last
one, but it is one at which the motion would end, so there is a first such frame. -/
theorem ends_of_brief {d : Duration} (h : Brief d) (interval : Duration) :
    (ofDurations d interval).Ends := by
  have hlow := (usableInterval_bounds interval).1
  have hoffset : (ofDurations d interval).offset 1000 =
      (1000 * (usableInterval interval).nanos + (Duration.nanosPerMilli - 1)) /
        Duration.nanosPerMilli := rfl
  have hwhole : (Duration.ofMillis ((ofDurations d interval).offset 1000)).wholeSeconds =
      (ofDurations d interval).offset 1000 / 1000 := by
    simp only [Duration.wholeSeconds, Duration.ofMillis, Duration.nanosPerMilli,
      Duration.nanosPerSecond]
    omega
  simp only [Duration.nanosPerMilli] at hlow hoffset
  -- a thousand frames take at least a second
  refine ⟨1000, decide_eq_true (h.one_le_progress ?_)⟩
  rw [hwhole, hoffset]
  omega

theorem ends_move (interval : Duration) :
    (ofDurations (.ofMillis Routine.moveTime) interval).Ends :=
  ends_of_brief brief_move interval

theorem ends_turn (interval : Duration) :
    (ofDurations (.ofMillis Routine.turnTime) interval).Ends :=
  ends_of_brief brief_turn interval

end Tween

end StagePlay
