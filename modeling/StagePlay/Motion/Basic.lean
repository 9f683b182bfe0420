import StagePlay.Actor.Basic
import StagePlay.Duration

/-!
# Motions

A motion takes one field of a figure from a start to a goal. How far it has come is a number `t`
from 0 to 1, the part of its duration that has passed.

* `lerp` — the value at `t` on the way between two others;
* `progress` — the part of a duration that has passed;
* `Motion.change` — the change that shows a figure at `t`.
-/

namespace StagePlay

open Number

/-- **The value at `t` between two others.** From 1 on it is the goal itself, whatever rounding
would make of it. -/
def lerp (start goal t : Float) : Float :=
  if 1.0 ≤ t then goal else start + (goal - start) * t

/-- **The part of a duration that has passed**, from 0 to 1. A duration of no time is over at once.
-/
def progress (elapsed duration : Duration) : Float :=
  if duration = .zero then 1.0 else clamp 0.0 1.0 (elapsed.seconds / duration.seconds)

/-- **A motion** of a figure: over the stage, about itself, or in size. -/
inductive Motion where
  | glide (start goal : Point)
  | turn (start goal : Float)
  | grow (start goal : Float)
  deriving DecidableEq, Repr

/-- The change that shows a figure at `t` of a motion. -/
def Motion.change : Motion → Float → Change
  | .glide a b, t => .toPosition ⟨lerp a.x b.x t, lerp a.y b.y t⟩
  | .turn a b, t => .toHeading (lerp a b t)
  | .grow a b, t => .toScale (lerp a b t)

end StagePlay
