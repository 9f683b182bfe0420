import StagePlay.Number.Exact

/-!
# Durations

Lengths of time in whole nanoseconds. Timers fire on whole milliseconds, so a duration is waited for
by its `ticks`, the milliseconds that cover it.

* `Duration.ofSeconds` — the nanoseconds nearest to a float of seconds, computed from its exact
  value;
* `Duration.seconds` — a duration as a float of seconds;
* `Duration.ticks` — the least number of milliseconds that is not shorter.
-/

namespace StagePlay

open Number

/-- **A length of time.** -/
structure Duration where
  nanos : Nat
  deriving DecidableEq, Repr

namespace Duration

/-- Nanoseconds in a second. -/
def nanosPerSecond : Nat := 1000000000

/-- Nanoseconds in a millisecond. -/
def nanosPerMilli : Nat := 1000000

/-- The longest duration: all the seconds that 64 bits hold, and all but one nanosecond more. -/
def longest : Duration := ⟨wordBound * nanosPerSecond - 1⟩

/-- No time at all. -/
def zero : Duration := ⟨0⟩

/-- Whole milliseconds. -/
def ofMillis (ms : Nat) : Duration := ⟨ms * nanosPerMilli⟩

/-- Whole microseconds. -/
def ofMicros (us : Nat) : Duration := ⟨us * 1000⟩

/-- Whole seconds and nanoseconds of one more. -/
def ofParts (secs nanos : Nat) : Duration := ⟨secs * nanosPerSecond + nanos⟩

/-- The whole seconds of a duration. -/
def wholeSeconds (d : Duration) : Nat := d.nanos / nanosPerSecond

/-- The nanoseconds beyond the whole seconds. -/
def subNanos (d : Duration) : Nat := d.nanos % nanosPerSecond

/-- **Seconds as a duration**: the nearest nanosecond, a half going to the even one. What is not
positive is no time, and what no duration holds is the longest one. -/
def ofSeconds (x : Float) : Duration :=
  match Exact.ofFloat x with
  | .undefined => zero
  | .infinite negative => if negative then zero else longest
  | .finite negative m e =>
    if negative then zero
    else ⟨min ((Exact.finite false m e).nearestEven nanosPerSecond) longest.nanos⟩

/-- A duration in seconds, as a float. -/
def seconds (d : Duration) : Float :=
  Float.ofNat d.wholeSeconds + Float.ofNat d.subNanos / 1000000000.0

/-- **The milliseconds that cover a duration.** -/
def ticks (d : Duration) : Nat := (d.nanos + (nanosPerMilli - 1)) / nanosPerMilli

/-- The longer of two durations. -/
def longer (a b : Duration) : Duration := ⟨max a.nanos b.nanos⟩

/-- Whole milliseconds are covered by as many. -/
@[simp] theorem ticks_ofMillis (ms : Nat) : (ofMillis ms).ticks = ms := by
  simp only [ticks, ofMillis, nanosPerMilli]
  omega

end Duration

end StagePlay
