import StagePlay.Proofs.Motion.Progress

/-!
# The frames of a tween

A tween of whole milliseconds whose timers fire exactly when its frames are due shows as many frames
as intervals cover its duration, and one more. All but the last show less than 1, so it does not end
too early, and the last one shows 1, so it does not end too late; and rounding never makes a later
frame show less than an earlier one (`Tween.regular_of_punctual`).

Two kinds of facts meet here. What the loop does once it is known which frame is the last one says
nothing about floats (`runFrom_ended`, `runFrom_cancelled`). What a frame shows is a fact about floats:
up to `2 ^ 42` milliseconds the errors are known from `StagePlay.Proofs.Motion.Progress`; the last
frame may come much later than that if the interval is long, and then it is enough to know the leading
digits of the two times (`one_le_progress_of_late`).
-/

namespace StagePlay

open Number

/-! ### Floats that are told by their size -/

/-- A float that is neither below nor above 1 is 1. It cannot be told by its value alone, as the
comparison is one of bits. -/
theorem eq_one_of_le_of_not_lt {x : Float} (hle : (1.0 : Float) ≤ x) (hlt : ¬(1.0 : Float) < x) :
    x = 1.0 := by
  rw [le_iff_unpack, unpack_one] at hle
  rw [lt_iff_unpack, unpack_one] at hlt
  have hunpack : x.toModel.unpack = (1.0 : Float).toModel.unpack := by
    rw [unpack_one]
    generalize x.toModel.unpack = u at hle hlt
    cases u with
    | infinity s =>
      cases s with
      | positive => exact absurd rfl hlt
      | negative => exact absurd hle Bool.false_ne_true
    | notANumber => exact absurd hle Bool.false_ne_true
    | zero s => exact absurd hle Bool.false_ne_true
    | finite s m e hm =>
      cases s with
      | negative => exact absurd hle Bool.false_ne_true
      | positive =>
        change ((compare (-52) e).then (compare (2 ^ 52) m)).isLE = true at hle
        change ¬(some ((compare (-52) e).then (compare (2 ^ 52) m)) == some .lt) = true at hlt
        -- exponent and mantissa are compared one after the other, and 1 has the same ones
        have hequal : (compare (-52) e).then (compare (2 ^ 52) m) = .eq := by
          cases h : (compare (-52) e).then (compare (2 ^ 52) m) with
          | eq => rfl
          | lt => exact absurd (by rw [h]; rfl) hlt
          | gt => exact absurd (by rwa [h] at hle) Bool.false_ne_true
        obtain ⟨hexponent, hmantissa⟩ := Ordering.then_eq_eq.mp hequal
        obtain rfl := Int.compare_eq_eq.mp hexponent
        obtain rfl := Nat.compare_eq_eq.mp hmantissa
        rfl
  refine eq_of_toModel_eq_pack isFinite_one ?_
  rw [← hunpack, pack_unpack]
  rw [hunpack, unpack_one]
  rfl

/-- What is clamped to 1 and not below it is 1, bit for bit. -/
theorem clamp_eq_one {x : Float} (h : (1.0 : Float) ≤ clamp 0.0 1.0 x) : clamp 0.0 1.0 x = 1.0 := by
  unfold clamp at h ⊢
  split at h
  · exact absurd h (by decide)
  · split at h
    · next hzero hone => rw [if_neg hzero, if_pos hone]
    · next hzero hone =>
      rw [if_neg hzero, if_neg hone]
      exact eq_one_of_le_of_not_lt h hone

/-- **The mantissa of a positive float** that is not very small is full, and the value bounds the
exponent. With these the leading digit of a quotient is known. -/
theorem full_of_value {x : Float} (hx : isFinite x = true) {l : ℤ}
    (hlow : 2 ^ (-1022 : ℤ) ≤ value x) (hhigh : value x < 2 ^ l) :
    ∃ n f, ∃ hn : 0 < n, x.toModel.unpack = .finite .positive n f hn ∧ n.log2 = 52 ∧ f + 52 < l := by
  have hpos := (two_zpow_pos (-1022)).trans_le hlow
  have hcanonical := canonical_unpack hx
  unfold value at hlow hhigh hpos
  generalize x.toModel.unpack = u at hcanonical hlow hhigh hpos
  cases hcanonical with
  | zero s => exact absurd hpos (lt_irrefl 0)
  | @finite s m e hm below least full =>
    cases s with
    | negative =>
      rw [unpackedValue_negative, neg_pos] at hpos
      exact absurd hpos (not_lt.mpr (mul_nonneg (Nat.cast_nonneg m) (two_zpow_pos e).le))
    | positive =>
      rw [unpackedValue_positive] at hlow hhigh
      have hfull : 2 ^ 52 ≤ m := by
        rcases full with hfull | rfl
        · exact hfull
        -- only the least exponent goes with a smaller mantissa, and the value is too large for that
        · have hsplit : (2 : ℚ) ^ (-1022 : ℤ) = 2 ^ 52 * 2 ^ (-1074 : ℤ) := two_zpow_eq (-1022)
          rw [hsplit] at hlow
          exact_mod_cast le_of_mul_le_mul_right hlow (two_zpow_pos _)
      refine ⟨m, e, hm, rfl, (Nat.log2_eq_iff hm.ne').mpr ⟨hfull, below⟩, ?_⟩
      have hlead : (2 : ℚ) ^ (e + 52) ≤ m * 2 ^ e := by
        rw [zpow_add₀ two_ne_zero, mul_comm]
        exact mul_le_mul_of_nonneg_right (by exact_mod_cast hfull) (two_zpow_pos e).le
      exact (zpow_lt_zpow_iff_right₀ one_lt_two).mp (hlead.trans_lt hhigh)

/-! ### What is shown of a duration -/

theorem ofMillis_ne_zero {d : Nat} (h : 0 < d) : Duration.ofMillis d ≠ .zero := fun hzero => by
  have hnanos : d * Duration.nanosPerMilli = 0 := congrArg Duration.nanos hzero
  simp only [Duration.nanosPerMilli] at hnanos
  omega

section Progress

variable {d e e' : Nat}

/-- **A time far beyond the duration** has reached it, as its leading digit tells. For such times
the errors above are not known, and need not be. -/
theorem one_le_progress_of_late (hd : 0 < d) (hd' : d < 2 ^ 40) (he : 2 ^ 42 < e) :
    (1.0 : Float) ≤ progress (.ofMillis e) (.ofMillis d) := by
  obtain ⟨hfinite, herror⟩ := seconds_error (j := d) (by omega)
  have hlow : (2 : ℚ) ^ (-1022 : ℤ) ≤ value (Duration.ofMillis d).seconds := by
    have hpos := seconds_lt hd (by omega)
    rw [seconds_zero] at hpos
    have hsmall : (2 : ℚ) ^ (-1022 : ℤ) ≤ 2 ^ (-11 : ℤ) := zpow_le_zpow_right₀ one_le_two (by decide)
    have hhalf : (2 : ℚ) ^ (-11 : ℤ) ≤ 0 + 1 / 2000 := by norm_num
    exact (hsmall.trans hhalf).trans hpos
  have hhigh : value (Duration.ofMillis d).seconds < 2 ^ (31 : ℤ) := by
    have hmost : (d : ℚ) ≤ 2 ^ 40 := by exact_mod_cast hd'.le
    have hpower : (2 : ℚ) ^ (31 : ℤ) = 2 ^ 31 := by norm_num
    rw [hpower]
    linarith [(abs_le.mp herror).2]
  obtain ⟨n, f, hn, hunpack, hfull, hf⟩ := full_of_value hfinite hlow hhigh
  have hwhole : 2 ^ 32 ≤ (Duration.ofMillis e).wholeSeconds := by
    simp only [Duration.wholeSeconds, Duration.ofMillis, Duration.nanosPerMilli,
      Duration.nanosPerSecond]
    omega
  -- the quotient of the leading digits is far above 1, whatever the rounding does
  have hquotient := atLeast_div (atLeast_seconds hwhole) hunpack hfull (by omega)
  unfold progress
  rw [if_neg (ofMillis_ne_zero hd)]
  exact one_le_clamp (hquotient.mono (by omega))

/-- **The duration is reached** when it has passed, and not before, for any time at all: up to `2 ^
42` milliseconds by the errors of rounding, and beyond that by the leading digits. -/
theorem reached_iff (hd : d < 2 ^ 40) :
    (1.0 : Float) ≤ progress (.ofMillis e) (.ofMillis d) ↔ d ≤ e := by
  rcases Nat.eq_zero_or_pos d with rfl | hpos
  · exact iff_of_true (by decide : (1.0 : Float) ≤ 1.0) (Nat.zero_le e)
  rcases Nat.lt_or_ge (2 ^ 42) e with hlate | hmost
  · exact iff_of_true (one_le_progress_of_late hpos hd hlate) (by omega)
  · exact one_le_progress_iff hpos (by omega) hmost

/-- What has reached its end shows exactly 1, so the last frame stands where the motion leads. -/
theorem progress_eq_one (hd : d < 2 ^ 40) (h : d ≤ e) :
    progress (.ofMillis e) (.ofMillis d) = 1.0 := by
  have hle := (reached_iff (e := e) hd).mpr h
  unfold progress at hle ⊢
  split at hle
  · next hzero => rw [if_pos hzero]
  · next hsome =>
    rw [if_neg hsome]
    exact clamp_eq_one hle

/-- What has not begun shows exactly 0, so the first frame stands where the motion starts. -/
theorem progress_zero (hpos : 0 < d) (hd : d < 2 ^ 40) :
    progress (.ofMillis 0) (.ofMillis d) = 0.0 := by
  have hvalue := seconds_lt hpos (by omega)
  rw [seconds_zero] at hvalue
  have hcanonical := canonical_unpack (seconds_error (j := d) (by omega)).1
  have hzero : (Duration.ofMillis 0).seconds.toModel.unpack = .zero .positive := by rfl
  -- zero by a positive number is zero, and a positive one
  have hquotient : Float.Model.UnpackedFloat.div .binary64
      (Duration.ofMillis 0).seconds.toModel.unpack (Duration.ofMillis d).seconds.toModel.unpack =
        .zero .positive := by
    rw [hzero]
    unfold value at hvalue
    generalize (Duration.ofMillis d).seconds.toModel.unpack = u at hcanonical hvalue
    cases hcanonical with
    | zero s =>
      have hnothing : unpackedValue (.zero s) = 0 := rfl
      rw [hnothing] at hvalue
      norm_num at hvalue
    | @finite s m e hm below least full =>
      cases s with
      | positive => rfl
      | negative =>
        rw [unpackedValue_negative] at hvalue
        have := mul_nonneg (Nat.cast_nonneg (α := ℚ) m) (two_zpow_pos e).le
        linarith
  have hnone : (Duration.ofMillis 0).seconds / (Duration.ofMillis d).seconds = 0.0 :=
    congrArg (fun u => (⟨Float.Model.pack u⟩ : Float)) hquotient
  unfold progress
  rw [if_neg (ofMillis_ne_zero hpos), hnone]
  rfl

/-- **What is shown is a number from 0 to 1**, before the end and after it. -/
theorem progress_unit (hd : d < 2 ^ 40) :
    (0.0 : Float) ≤ progress (.ofMillis e) (.ofMillis d) ∧
      progress (.ofMillis e) (.ofMillis d) ≤ (1.0 : Float) := by
  rcases Nat.lt_or_ge e d with hless | hreached
  · obtain ⟨hfinite, hlow, hhigh⟩ :=
      progress_bounds (d := d) (by omega) (by omega) (by omega : e ≤ 2 ^ 42)
    rw [le_iff_value isFinite_zero hfinite, le_iff_value hfinite isFinite_one, value_zero, value_one]
    exact ⟨hlow, hhigh⟩
  · rw [progress_eq_one hd hreached]
    decide

/-- What has not reached its end shows less than 1. -/
theorem progress_lt_one (hd : d < 2 ^ 40) (h : e < d) :
    progress (.ofMillis e) (.ofMillis d) < (1.0 : Float) := by
  have hfinite := (progress_bounds (d := d) (by omega) (by omega) (by omega : e ≤ 2 ^ 42)).1
  have hnot := (reached_iff (e := e) hd).not.mpr (not_le.mpr h)
  rw [le_iff_value isFinite_one hfinite, not_le] at hnot
  rwa [lt_iff_value hfinite isFinite_one]

/-- **What is shown never gets less.** The exact quotients are in order, and rounding to the nearest
keeps the order; what has reached its end shows the most there is. -/
theorem progress_mono (hd : d < 2 ^ 40) (h : e ≤ e') :
    progress (.ofMillis e) (.ofMillis d) ≤ progress (.ofMillis e') (.ofMillis d) := by
  rcases Nat.lt_or_ge e' d with hless | hreached
  · have hpos : 0 < d := by omega
    obtain ⟨hfinite, hvalue⟩ := value_progress hpos (by omega) (by omega : e ≤ 2 ^ 42)
    obtain ⟨hfinite', hvalue'⟩ := value_progress hpos (by omega) (by omega : e' ≤ 2 ^ 42)
    rw [le_iff_value hfinite hfinite']
    rcases h.eq_or_lt with rfl | hlt
    · exact le_rfl
    have hquotient := rounds_quotient hpos (by omega) (by omega : e ≤ 2 ^ 42)
    have hquotient' := rounds_quotient hpos (by omega) (by omega : e' ≤ 2 ^ 42)
    have hduration := seconds_lt hpos (by omega)
    have hseconds := seconds_lt hlt (by omega)
    rw [seconds_zero] at hduration
    -- the exact quotients are in order, and rounding keeps the order
    have hexact : value (Duration.ofMillis e).seconds / value (Duration.ofMillis d).seconds <
        value (Duration.ofMillis e').seconds / value (Duration.ofMillis d).seconds :=
      div_lt_div_of_pos_right (by linarith) (by linarith)
    have hrounded := hquotient.nearest.mono hquotient'.nearest (representable_value hquotient.finite)
      (representable_value hquotient'.finite) hexact
    rw [hvalue, hvalue']
    exact min_le_min le_rfl hrounded
  · rw [progress_eq_one hd hreached]
    exact (progress_unit hd).2

end Progress

namespace Tween

/-! ### The loop -/

section Loop

variable (t : Tween) {c : Option Nat} {left k : Nat}

/-- What frame `k` is: its time, and what it shows. -/
def shown (k : Nat) : Nat × Float := (t.offset k, t.progress k)

variable (hlast : t.isLast (k + left) = true)
  (hbefore : ∀ j, k ≤ j → j < k + left → t.isLast j = false)

include hlast hbefore

/-- **A tween that is not called off** before its last frame shows every frame. The induction is on
the frames that are left, counted down to the last one. -/
theorem runFrom_ended (hc : isCancelledBy c (t.offset (k + left)) = false) :
    t.runFrom c left k =
      { Course.ended c (t.offset (k + left)) with frames := (List.range' k (left + 1)).map t.shown } := by
  induction left generalizing k with
  | zero =>
    -- the last frame: the loop shows it and is done
    rw [Nat.add_zero] at hlast hc
    unfold runFrom
    dsimp only
    rw [if_neg (Bool.eq_false_iff.mp hc), if_pos hlast]
    rfl
  | succ left ih =>
    have hnext : k + (left + 1) = k + 1 + left := by omega
    -- a tick before the last one is not called off either
    have hopen : isCancelledBy c (t.offset k) = false := by
      cases c with
      | none => rfl
      | some m =>
        have := t.offset_mono (Nat.le_add_right k (left + 1))
        simp only [isCancelledBy, Option.any_some, decide_eq_false_iff_not] at hc ⊢
        omega
    rw [hnext] at hlast hc hbefore
    have hrest := ih hlast (fun j hj => hbefore j (by omega)) hc
    unfold runFrom
    dsimp only
    rw [if_neg (Bool.eq_false_iff.mp hopen),
      if_neg (Bool.eq_false_iff.mp (hbefore k le_rfl (by omega))), hrest, hnext,
      List.range'_succ, List.map_cons]
    rfl

/-- **A tween that is called off** shows the frames that come before, and stops at the time of the
call. A frame that is due at that very time is not shown, since the call is looked at first. -/
theorem runFrom_cancelled {m : Nat} (hm : m ≤ t.offset (k + left)) :
    t.runFrom (some m) left k =
      ⟨true, m, ((List.range' k (left + 1)).map t.shown).filter fun frame => frame.1 < m⟩ := by
  -- from the call on there are no frames
  have hnone : ∀ {i}, m ≤ t.offset i → ∀ count,
      ((List.range' i count).map t.shown).filter (fun frame => frame.1 < m) = [] := by
    intro i hi count
    refine List.filter_eq_nil_iff.mpr fun frame hframe => ?_
    obtain ⟨j, hj, rfl⟩ := List.mem_map.mp hframe
    have hlate := t.offset_mono (List.mem_range'_1.mp hj).1
    have htime : (t.shown j).1 = t.offset j := rfl
    rw [htime, decide_eq_true_eq]
    omega
  induction left generalizing k with
  | zero =>
    rw [Nat.add_zero] at hm
    have hcalled : isCancelledBy (some m) (t.offset k) = true := decide_eq_true hm
    unfold runFrom
    dsimp only
    rw [if_pos hcalled, hnone hm]
    rfl
  | succ left ih =>
    have hnext : k + (left + 1) = k + 1 + left := by omega
    by_cases hcalled : m ≤ t.offset k
    -- the call comes before this frame, so this one and all later ones are left out
    · have hcalled' : isCancelledBy (some m) (t.offset k) = true := decide_eq_true hcalled
      unfold runFrom
      dsimp only
      rw [if_pos hcalled', hnone hcalled]
      rfl
    -- it comes later: this frame is shown, and then as for the frames that follow
    · have hopen : isCancelledBy (some m) (t.offset k) = false := decide_eq_false hcalled
      have hshown : decide ((t.shown k).1 < m) = true := decide_eq_true (not_le.mp hcalled)
      rw [hnext] at hlast hm hbefore
      have hrest := ih hlast (fun j hj => hbefore j (by omega)) hm
      unfold runFrom
      dsimp only
      rw [if_neg (Bool.eq_false_iff.mp hopen),
        if_neg (Bool.eq_false_iff.mp (hbefore k le_rfl (by omega))), hrest,
        List.range'_succ (s := k), List.map_cons, List.filter_cons, if_pos hshown]
      rfl

end Loop

/-! ### Frames at their deadlines -/

/-- The moment at which frame `k` is due, as a whole number of intervals from the start. -/
def deadline (t : Tween) (k : Nat) : Duration := ⟨k * t.interval.nanos⟩

/-- The progress at that moment. -/
def dueProgress (t : Tween) (k : Nat) : Float := StagePlay.progress (t.deadline k) t.duration

/-- **Ticks fire at their deadlines**: the timers, which fire on whole milliseconds, show every
frame of the tween exactly when it is due. -/
def Punctual (t : Tween) : Prop :=
  ∀ k ≤ t.intervals, Duration.ofMillis (t.offset k) = t.deadline k

/-- An interval of whole milliseconds has every deadline on a whole millisecond. Any other interval
has deadlines between them, and its ticks fire a little late. -/
theorem punctual_ofMillis (duration : Duration) (p : Nat) : Punctual ⟨duration, .ofMillis p⟩ := by
  intro k _
  simp only [offset, deadline, Duration.ofMillis, Duration.ticks, Duration.nanosPerMilli,
    Duration.mk.injEq]
  rw [← Nat.mul_assoc]
  omega

/-- The intervals cover the duration, and one fewer would not. -/
theorem intervals_spec (t : Tween) (h : 0 < t.interval.nanos) :
    t.duration.nanos ≤ t.intervals * t.interval.nanos ∧
      t.intervals * t.interval.nanos < t.duration.nanos + t.interval.nanos := by
  have hdivision := Nat.div_add_mod (t.duration.nanos + t.interval.nanos - 1) t.interval.nanos
  have hrest := Nat.mod_lt (t.duration.nanos + t.interval.nanos - 1) h
  have hproduct : t.intervals * t.interval.nanos =
      t.interval.nanos * ((t.duration.nanos + t.interval.nanos - 1) / t.interval.nanos) :=
    Nat.mul_comm _ _
  omega

section Deadlines

variable {t : Tween} {d : Nat} (hduration : t.duration = .ofMillis d)
  (hinterval : Duration.nanosPerMilli ≤ t.interval.nanos) (hclock : t.Punctual)

include hduration

/-- The last frame is one that comes when the duration has passed. It is the first such frame, since
the loop ends with it. -/
theorem isLast_iff_reached (hd : d < 2 ^ 40) (k : Nat) : t.isLast k = true ↔ d ≤ t.offset k := by
  unfold isLast progress
  rw [hduration, decide_eq_true_eq]
  exact reached_iff hd

include hclock

theorem dueProgress_eq {k : Nat} (hk : k ≤ t.intervals) :
    t.dueProgress k = StagePlay.progress (.ofMillis (t.offset k)) (.ofMillis d) := by
  unfold dueProgress
  rw [hclock k hk, hduration]

include hinterval

/-- After all intervals the duration has passed. -/
theorem le_offset_intervals : d ≤ t.offset t.intervals := by
  have hcovers := (t.intervals_spec (Nat.lt_of_lt_of_le (by decide) hinterval)).1
  have hdue : t.offset t.intervals * Duration.nanosPerMilli = t.intervals * t.interval.nanos :=
    congrArg Duration.nanos (hclock _ le_rfl)
  refine Nat.le_of_mul_le_mul_right ?_ (by decide : 0 < Duration.nanosPerMilli)
  have hnanos : t.duration.nanos = d * Duration.nanosPerMilli := congrArg Duration.nanos hduration
  rwa [hdue, ← hnanos]

/-- Before the last interval is over the duration has not passed. -/
theorem offset_lt {k : Nat} (hk : k < t.intervals) : t.offset k < d := by
  have hless := (t.intervals_spec (Nat.lt_of_lt_of_le (by decide) hinterval)).2
  have hdue : t.offset k * Duration.nanosPerMilli = k * t.interval.nanos :=
    congrArg Duration.nanos (hclock k hk.le)
  have hnext := Nat.mul_le_mul_right t.interval.nanos (Nat.succ_le_of_lt hk)
  rw [Nat.succ_mul] at hnext
  have hnanos : t.duration.nanos = d * Duration.nanosPerMilli := congrArg Duration.nanos hduration
  refine Nat.lt_of_mul_lt_mul_right (a := Duration.nanosPerMilli) ?_
  rw [hdue, ← hnanos]
  omega

/-- **The last frame** is the one after all intervals: the duration has passed by then, and had not
before. -/
theorem isLast_intervals (hd : d < 2 ^ 40) :
    t.isLast (0 + t.intervals) = true ∧ ∀ j, 0 ≤ j → j < 0 + t.intervals → t.isLast j = false := by
  rw [Nat.zero_add]
  refine ⟨(isLast_iff_reached hduration hd _).mpr (le_offset_intervals hduration hinterval hclock),
    fun j _ hj => Bool.eq_false_iff.mpr fun hlast => ?_⟩
  have hreached := (isLast_iff_reached hduration hd j).mp hlast
  have hearly := offset_lt hduration hinterval hclock hj
  omega

end Deadlines

/-- **How a tween goes** whose ticks fire at their deadlines. -/
structure Regular (t : Tween) : Prop where
  /-- The intervals cover the duration, and one fewer would not. -/
  covers : t.duration.nanos ≤ (t.deadline t.intervals).nanos ∧
    (t.deadline t.intervals).nanos < t.duration.nanos + t.interval.nanos
  /-- It ends by itself when they are over. -/
  ends : (t.run none).cancelled = false ∧
    Duration.ofMillis (t.run none).elapsed = t.deadline t.intervals
  /-- It shows a frame at the start and one after each interval. -/
  frames : (t.run none).frames.map (fun frame => (Duration.ofMillis frame.1, frame.2)) =
    (List.range (t.intervals + 1)).map fun k => (t.deadline k, t.dueProgress k)
  /-- It begins at 0, unless there is no time at all to show. -/
  first : t.dueProgress 0 = if t.duration = .zero then 1.0 else 0.0
  /-- A later frame does not show less. -/
  rising : ∀ j k, j ≤ k → k ≤ t.intervals → t.dueProgress j ≤ t.dueProgress k
  /-- All frames show something from 0 to 1. -/
  unit : ∀ k ≤ t.intervals, (0.0 : Float) ≤ t.dueProgress k ∧ t.dueProgress k ≤ (1.0 : Float)
  /-- Before the last one they show less than 1. -/
  below : ∀ k < t.intervals, t.dueProgress k < (1.0 : Float)
  /-- And the last one shows exactly 1. -/
  last : t.dueProgress t.intervals = 1.0
  /-- Called off before its end, it has shown the frames that came before the call. -/
  calledOff : ∀ m ≤ (t.run none).elapsed,
    t.run (some m) = ⟨true, m, (t.run none).frames.filter fun frame => frame.1 < m⟩

/-- **The frames of a tween** whose ticks fire at their deadlines, for every duration of whole
milliseconds below `2 ^ 40` and every interval from a millisecond on: rounding never ends it a frame
early or late, and never makes it go back. -/
theorem regular_of_punctual {t : Tween} {d : Nat} (hduration : t.duration = .ofMillis d)
    (hd : d < 2 ^ 40) (hinterval : Duration.nanosPerMilli ≤ t.interval.nanos)
    (hclock : t.Punctual) : t.Regular := by
  -- the last frame is the first one that is due at the end or later, and shows 1 in spite of rounding
  obtain ⟨hlast, hbefore⟩ := isLast_intervals hduration hinterval hclock hd
  have hlate := le_offset_intervals hduration hinterval hclock
  have hrun : t.run none = { Course.ended none (t.offset t.intervals) with
      frames := (List.range (t.intervals + 1)).map t.shown } := by
    have hended := t.runFrom_ended (c := none) hlast hbefore rfl
    rwa [Nat.zero_add, ← List.range_eq_range'] at hended
  have helapsed : (t.run none).elapsed = t.offset t.intervals := by
    rw [hrun]
    exact Nat.max_zero _
  have hframes : (t.run none).frames = (List.range (t.intervals + 1)).map t.shown := by rw [hrun]
  exact
    { covers := t.intervals_spec (Nat.lt_of_lt_of_le (by decide) hinterval)
      ends := ⟨by rw [hrun]; rfl, by rw [helapsed, hclock _ le_rfl]⟩
      frames := by
        rw [hframes, List.map_map]
        refine List.map_congr_left fun k hk => ?_
        have htime := hclock k (Nat.le_of_lt_succ (List.mem_range.mp hk))
        show (Duration.ofMillis (t.offset k),
          StagePlay.progress (.ofMillis (t.offset k)) t.duration) = _
        rw [htime]
        rfl
      first := by
        have hstart : t.offset 0 = 0 := by
          simp only [offset, Nat.zero_mul]
          rfl
        rw [dueProgress_eq hduration hclock (Nat.zero_le _), hstart, hduration]
        rcases Nat.eq_zero_or_pos d with rfl | hpos
        · rfl
        · rw [progress_zero hpos hd, if_neg (ofMillis_ne_zero hpos)]
      rising := fun j k hjk hk => by
        rw [dueProgress_eq hduration hclock (hjk.trans hk), dueProgress_eq hduration hclock hk]
        exact progress_mono hd (t.offset_mono hjk)
      unit := fun k hk => by
        rw [dueProgress_eq hduration hclock hk]
        exact progress_unit hd
      below := fun k hk => by
        rw [dueProgress_eq hduration hclock hk.le]
        exact progress_lt_one hd (offset_lt hduration hinterval hclock hk)
      last := by
        rw [dueProgress_eq hduration hclock le_rfl]
        exact progress_eq_one hd hlate
      calledOff := fun m hm => by
        rw [helapsed] at hm
        have hcancelled := t.runFrom_cancelled hlast hbefore (m := m) (by rwa [Nat.zero_add])
        rwa [← List.range_eq_range', ← hframes] at hcancelled }

/-- Half a second with a frame every 16 milliseconds: 32 intervals cover it, the last of them in
part. -/
theorem regular_half_second :
    (Tween.mk (.ofMillis 500) (.ofMillis 16)).intervals = 32 ∧
      Regular ⟨.ofMillis 500, .ofMillis 16⟩ :=
  ⟨by decide, regular_of_punctual (d := 500) rfl (by decide) (by decide) (punctual_ofMillis _ _)⟩

/-- Called off in the millisecond of its last frame, a tween does not show it. -/
example : run ⟨.ofMillis 3, .ofMillis 2⟩ (some 4) =
    ⟨true, 4, [(0, 0.0), (2, progress ⟨.ofMillis 3, .ofMillis 2⟩ 1)]⟩ := by decide +kernel

end Tween

end StagePlay
