import StagePlay.Motion.Basic

/-!
# Tweens

A tween shows the frames of a motion at regular times. Frame `k` is due `k` intervals after the
start, on the first whole millisecond from then on, and shows the progress that the time passed
makes of the duration. The frame that shows 1 is the last one.

* `Tween.offset`, `Tween.progress` — when a frame is due, and what it shows;
* `waitTicks` — the milliseconds that a wait takes;
* `Tween.run`, `runWait` — a tween and a wait that nothing else disturbs, with the moment at which
  they may be called off.

No timer waits longer than `longestWait`; longer waits and longer intervals are cut to it.
-/

namespace StagePlay

/-- The longest wait of a timer, thirty years of milliseconds. -/
def longestWait : Nat := 946080000000

/-- The milliseconds that a wait takes. -/
def waitTicks (d : Duration) : Nat := min d.ticks longestWait

/-- **A tween**: how long it takes, and the time from frame to frame. -/
structure Tween where
  duration : Duration
  interval : Duration
  deriving DecidableEq, Repr

namespace Tween

/-- The time from frame to frame that is used where `d` is asked for: at least a millisecond. -/
def usableInterval (d : Duration) : Duration :=
  ⟨min (max d.nanos (Duration.ofMillis 1).nanos) (Duration.ofMillis longestWait).nanos⟩

/-- A tween, with an interval that can be used. -/
def ofDurations (duration interval : Duration) : Tween := ⟨duration, usableInterval interval⟩

/-- When frame `k` is due, in milliseconds after the start. -/
def offset (t : Tween) (k : Nat) : Nat := (Duration.mk (k * t.interval.nanos)).ticks

/-- The progress that frame `k` shows. -/
def progress (t : Tween) (k : Nat) : Float :=
  StagePlay.progress (.ofMillis (t.offset k)) t.duration

/-- Whether frame `k` shows the end. -/
def isLast (t : Tween) (k : Nat) : Bool := 1.0 ≤ t.progress k

/-- The number of intervals that cover the duration. No frame follows the one after so many. -/
def intervals (t : Tween) : Nat :=
  (t.duration.nanos + t.interval.nanos - 1) / t.interval.nanos

/-- **What became of a tween or a wait**: whether it was called off, the milliseconds until both it
and the call were over, and its frames, each with its time and progress. -/
structure Course where
  cancelled : Bool
  elapsed : Nat
  frames : List (Nat × Float)
  deriving DecidableEq, Repr

/-- Something that ended by itself after `t` milliseconds, though it would have been called off
later. -/
def Course.ended (cancelAt : Option Nat) (t : Nat) : Course := ⟨false, max t (cancelAt.getD 0), []⟩

/-- Whether something due at `t` is called off before. A call comes first within its millisecond. -/
def isCancelledBy (cancelAt : Option Nat) (t : Nat) : Bool := cancelAt.any fun c => c ≤ t

/-- A tween from frame `k` on, with at most `left` more frames after that one. -/
def runFrom (t : Tween) (cancelAt : Option Nat) : Nat → Nat → Course
  | left, k =>
    let now := t.offset k
    -- called off before this frame: no more frames, and the end is the moment of the call
    if isCancelledBy cancelAt now then ⟨true, cancelAt.getD now, []⟩
    else
      let shown := (now, t.progress k)
      if t.isLast k then { Course.ended cancelAt now with frames := [shown] }
      else match left with
        -- never reached: the frame after the last interval shows 1
        | 0 => { Course.ended cancelAt now with frames := [shown] }
        | left + 1 =>
          let course := runFrom t cancelAt left (k + 1)
          { course with frames := shown :: course.frames }

/-- **A tween that runs alone**, and is called off at a given moment if that comes before its end.
-/
def run (t : Tween) (cancelAt : Option Nat) : Course := t.runFrom cancelAt t.intervals 0

end Tween

/-- **A wait that runs alone**, and is called off at a given moment if that comes before its end. -/
def runWait (d : Duration) (cancelAt : Option Nat) : Tween.Course :=
  if Tween.isCancelledBy cancelAt (waitTicks d) then ⟨true, cancelAt.getD 0, []⟩
  else .ended cancelAt (waitTicks d)

end StagePlay
