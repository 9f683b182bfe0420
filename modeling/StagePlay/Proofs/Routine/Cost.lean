import StagePlay.Proofs.Motion.Progress
import StagePlay.Proofs.Routine.Effect

/-!
# What the language costs

How many milliseconds a block takes, said without any chain at work. A motion takes the intervals
from frame to frame that cover it, which is `Tween.span`; so a move and a turn take longer than they
are said to, unless their actor is not on the stage, when they are pauses (`Block.cost`).

* `Tween.isLast_iff_span`: on the whole milliseconds of an interval that can be used, the last frame of
  a motion of the language is the one at the end of its span.
* `Repertoire.cost_act`: where all of the language is known, a block lets as much time pass as it costs.
-/

namespace StagePlay

open Routine

/-! ### Spans -/

namespace Tween

/-- **The time from the first frame to the last one** of a motion of `d` milliseconds with a frame
every `p` milliseconds: so many intervals as cover it. -/
def span (p d : Nat) : Nat := p * ((d + p - 1) / p)

variable {p d k : Nat} (hp : 1 ≤ p)

include hp

/-- A span covers its duration, and just so. -/
theorem span_le_iff : span p d ≤ k * p ↔ d ≤ k * p := by
  unfold span
  rw [Nat.mul_comm p, Nat.mul_le_mul_right_iff hp, Nat.div_le_iff_le_mul_add_pred hp, Nat.mul_comm p]
  omega

/-- A span is longer than its duration by less than an interval. -/
theorem span_lt : span p d < d + p := by
  have hdiv := Nat.mul_div_le (d + p - 1) p
  unfold span
  omega

/-- Before the end of a span there is time for another interval. -/
theorem succ_le_span (hk : k * p < span p d) : (k + 1) * p ≤ span p d := by
  unfold span at hk ⊢
  rw [Nat.mul_comm p, Nat.mul_lt_mul_right hp] at hk
  rw [Nat.mul_comm p]
  exact Nat.mul_le_mul_right p hk

variable (hp' : p ≤ longestWait)

include hp'

/-- **Frames are due at the multiples of the interval**, without any rounding to whole milliseconds.
-/
theorem offset_ofMillis (duration : Duration) (k : Nat) :
    (ofDurations duration (.ofMillis p)).offset k = k * p := by
  have husable : usableInterval (.ofMillis p) = .ofMillis p := by
    simp only [usableInterval, Duration.ofMillis, Duration.mk.injEq, Duration.nanosPerMilli]
    omega
  have hnanos : k * (Duration.ofMillis p).nanos = (Duration.ofMillis (k * p)).nanos := by
    simp only [Duration.ofMillis, Nat.mul_assoc]
  unfold offset ofDurations
  dsimp only
  rw [husable, hnanos]
  exact Duration.ticks_ofMillis (k * p)

/-- **The last frame is the one at the end of the span.** Which frame is the last one is decided by
floats, and for the motions of the language they decide as the whole numbers do. -/
theorem isLast_iff_span (hd : 0 < d) (hd' : d ≤ moveTime) (hk : k * p ≤ span p d) :
    (ofDurations (.ofMillis d) (.ofMillis p)).isLast k = true ↔ k * p = span p d := by
  have hoffset := offset_ofMillis hp hp' (.ofMillis d) k
  -- so far the floats that decide are exact
  have hbound : k * p ≤ 2 ^ 42 := by
    have hspan : span p d < d + p := span_lt hp
    unfold moveTime at hd'
    unfold longestWait at hp'
    omega
  rw [isLast_iff hd (hd'.trans (by decide)) (hoffset ▸ hbound), hoffset, ← span_le_iff hp]
  omega

end Tween

/-! ### Costs -/

/-- **What a block costs**, in milliseconds: for an actor who is on the stage or is not, and with a
frame every `p` milliseconds. A motion without an actor to show it on is a pause of its plain
duration. -/
def Block.cost (p : Nat) (known : Bool) (b : Block) : Nat :=
  match b.named with
  | .moveSteps | .moveUp | .moveDown | .moveLeft | .moveRight | .gotoXY =>
    if known then Tween.span p 500 else 500
  | .turnRight | .turnLeft => if known then Tween.span p 300 else 300
  | .say | .think => 1000
  | .show | .hide => 300
  | .wait => waitTicks (.ofSeconds ((b.number? "seconds").getD 1.0))
  | .start | .repeatCount | .repeatForever => 0
  | .custom _ => 200

/-- The time that a lapse lets pass, with a frame every `p` milliseconds. A wait takes the whole
milliseconds that cover it, and no more than the longest wait. -/
def Lapse.cost (p : Nat) : Lapse → Nat
  | .goOn | .giveUp | .breakDown => 0
  | .pause d => waitTicks d
  | .animate d _ => Tween.span p d.ticks

/-- A lapse that shows only short motions, no longer than a move. For these it is known which frame
is the last one. -/
def Lapse.IsShort (l : Lapse) : Prop :=
  ∀ d m, l = .animate d m → ∃ n, 0 < n ∧ n ≤ moveTime ∧ d = .ofMillis n

/-- A pause of some milliseconds takes just so long. -/
theorem waitTicks_ofMillis {n : Nat} (h : n ≤ longestWait) : waitTicks (.ofMillis n) = n := by
  unfold waitTicks
  rw [Duration.ticks_ofMillis, Nat.min_eq_left h]

/-- A glide costs as much as a move, whichever place it leads to. -/
theorem Routine.cost_glideTo (p : Nat) (place : Figure → Point) (cue : Cue) :
    (glideTo place cue).lapse.IsShort ∧ (glideTo place cue).lapse.cost p =
      if cue.figure?.isSome then Tween.span p 500 else 500 := by
  unfold glideTo
  cases cue.figure? with
  | none => exact ⟨nofun, waitTicks_ofMillis (by decide)⟩
  | some f =>
    refine ⟨fun d m h => ?_, congrArg (Tween.span p) (Duration.ticks_ofMillis moveTime)⟩
    obtain ⟨rfl, -⟩ := Lapse.animate.inj h
    exact ⟨moveTime, by decide, Nat.le_refl _, rfl⟩

/-- A turn costs as much to either side, and by whichever angle. -/
theorem Routine.cost_turn (p : Nat) (sign : Float) (cue : Cue) (b : Block) :
    (turn sign cue b).lapse.IsShort ∧ (turn sign cue b).lapse.cost p =
      if cue.figure?.isSome then Tween.span p 300 else 300 := by
  unfold turn
  cases cue.figure? with
  | none => exact ⟨nofun, waitTicks_ofMillis (by decide)⟩
  | some f =>
    refine ⟨fun d m h => ?_, congrArg (Tween.span p) (Duration.ticks_ofMillis turnTime)⟩
    obtain ⟨rfl, -⟩ := Lapse.animate.inj h
    exact ⟨turnTime, by decide, by decide, rfl⟩

/-- **A block lets as much time pass as it costs**, where all of the language is known. The
operations fall into the few kinds of routine that the language has. -/
theorem Repertoire.cost_act (p : Nat) (cue : Cue) (b : Block) :
    (builtin.act cue b).lapse.IsShort ∧
      (builtin.act cue b).lapse.cost p = b.cost p cue.figure?.isSome := by
  unfold Block.cost
  cases hb : b.named with
  | moveSteps | moveUp | moveDown | moveLeft | moveRight | gotoXY =>
    rw [act_builtin cue b (by rw [hb]; rfl)]
    exact Routine.cost_glideTo p _ cue
  | turnRight | turnLeft =>
    rw [act_builtin cue b (by rw [hb]; rfl)]
    exact Routine.cost_turn p _ cue b
  | say | think | «show» | hide =>
    rw [act_builtin cue b (by rw [hb]; rfl)]
    exact ⟨nofun, waitTicks_ofMillis (by decide)⟩
  -- a wait is given the same seconds by its cost and by its routine
  | wait | start | repeatCount | repeatForever =>
    rw [act_builtin cue b (by rw [hb]; rfl)]
    exact ⟨nofun, rfl⟩
  | custom kind =>
    -- no routine is found, and an unknown block takes the time of its announcement
    have hunknown : builtin.act cue b = unknownOperation b.operation.tag := by
      unfold act
      rw [find?_builtin, show Operation.ofTag b.operation.tag = b.named from rfl, hb]
      rfl
    rw [hunknown]
    exact ⟨nofun, waitTicks_ofMillis (by decide)⟩

end StagePlay
