import StagePlay.Routine.Basic

/-!
# The routines that belong to the language

* moves: `nudge`, `moveSteps` and `gotoXY` glide to a place, `turn` turns about;
* looks: `say` and `think` speak, and `present` shows or hides the owner;
* control: `wait` lets time pass, and `structural` leaves everything to the blocks that follow.

A move of an owner that is not on the stage takes its time too, as a pause.

`Repertoire.builtin` is the repertoire of them all.
-/

namespace StagePlay

open Number

namespace Routine

/-! ### Times and distances -/

/-- The milliseconds of a move. -/
def moveTime : Nat := 500

/-- The milliseconds of a turn. -/
def turnTime : Nat := 300

/-- The milliseconds of a change of visibility. -/
def visibilityTime : Nat := 300

/-- The milliseconds of a speech. -/
def speechTime : Nat := 1000

/-- How far a nudge goes. -/
def nudgeDistance : Float := 50.0

/-- How far one step goes. -/
def stepSize : Float := 20.0

/-- How far from the centre steps can lead, on either axis. -/
def stageLimit : Float := 150.0

/-- The outermost row and column of the grid. -/
def gridLimit : Int := 15

/-- The distance between rows and between columns of the grid. -/
def gridScale : Int := 10

/-- The degrees of a turn if none are given. -/
def defaultDegrees : Float := 15.0

/-- The number of steps if none is given. -/
def defaultSteps : Float := 10.0

/-- The seconds of a wait if none are given. -/
def defaultSeconds : Float := 1.0

/-! ### Moves -/

/-- A glide to a place that depends on where the owner is. For an owner that is not on the stage the
time of a move passes all the same. -/
def glideTo (place : Figure → Point) : Cue → Act := fun cue =>
  match cue.figure? with
  | none => .pauseFor moveTime
  | some f => ⟨[], .animate (.ofMillis moveTime) (.glide f.position (place f))⟩

/-- A move by a fixed distance along the axes. It knows no border: whoever is nudged often enough
leaves the stage. -/
def nudge (dx dy : Float) : Routine := fun cue _ =>
  glideTo (fun f => ⟨f.position.x + dx, f.position.y + dy⟩) cue

/-- Degrees as an angle. -/
def radians (degrees : Float) : Float := degrees * (3.141592653589793 / 180.0)

/-- **One axis of a step**, which ends at the border of the stage. Where no end is defined, the axis
stays. -/
def stepAxis (start offset : Float) : Float :=
  let goal := start + offset
  if goal.isNaN then start else clamp (-stageLimit) stageLimit goal

/-- Where a distance leads from a place in the direction of a heading. Heading 0 goes down the
second axis, and each axis ends at the border for itself. -/
def walk (f : Figure) (distance : Float) : Point :=
  let angle := radians (f.heading - 90.0)
  ⟨stepAxis f.position.x (distance * angle.cos), stepAxis f.position.y (distance * angle.sin)⟩

/-- A move by steps in the direction of the heading. A negative number of steps leads backwards. -/
def moveSteps : Routine := fun cue b =>
  let distance := (b.number? "steps").getD defaultSteps * stepSize
  glideTo (fun f => walk f distance) cue

/-- The row or column of the grid nearest to a number, of the rows and columns that there are. -/
def gridCell (v : Float) : Int :=
  -- half a unit is added before the value is made exact, so the sum is rounded once
  max (-gridLimit) (min gridLimit (Exact.ofFloat (v + 0.5)).floor)

/-- **The coordinate of a grid cell.** -/
def grid (v : Float) : Float := Float.ofInt (gridScale * gridCell v)

/-- A move to a cell of the grid, from wherever the owner is. -/
def gotoXY : Routine := fun cue b =>
  glideTo (fun _ => ⟨grid ((b.number? "x").getD 0.0), grid ((b.number? "y").getD 0.0)⟩) cue

/-- A turn to one side, `sign` times the degrees. The heading grows or falls without bound and is
not brought back to one round. -/
def turn (sign : Float) : Routine := fun cue b =>
  match cue.figure? with
  | none => .pauseFor turnTime
  | some f =>
    -- the goal is fixed when the turn begins
    let degrees := (b.number? "degrees").getD defaultDegrees
    ⟨[], .animate (.ofMillis turnTime) (.turn f.heading (f.heading + sign * degrees))⟩

/-! ### Looks -/

/-- The words of a block. -/
def message (b : Block) : String := (b.text? "message").getD ""

/-- Saying the words of the block. -/
def say : Routine := fun _ b => .showFor (.toSpeech (.say (message b))) speechTime

/-- Thinking the words of the block. -/
def think : Routine := fun _ b => .showFor (.toSpeech (.think (message b))) speechTime

/-- Showing or hiding the owner. -/
def present (visible : Bool) : Routine := fun _ _ => .showFor (.toVisible visible) visibilityTime

/-! ### Control -/

/-- A wait of some seconds. A number of seconds that is no length of time is no wait. -/
def wait : Routine := fun _ b =>
  ⟨[], .pause (.ofSeconds ((b.number? "seconds").getD defaultSeconds))⟩

/-- Nothing of its own: what such a block is for is told by the blocks in it and after it. -/
def structural : Routine := fun _ _ => .nothing

end Routine

/-- **The repertoire of the language.** Each routine is registered under the tag of its operation, as
someone else's routine would be; nothing but the tag says which operation it is for. -/
def Repertoire.builtin : Repertoire :=
  Repertoire.empty
    |>.register "start" Routine.structural
    |>.register "repeatCount" Routine.structural
    |>.register "repeatForever" Routine.structural
    |>.register "wait" Routine.wait
    |>.register "moveUp" (Routine.nudge 0.0 Routine.nudgeDistance)
    |>.register "moveDown" (Routine.nudge 0.0 (-Routine.nudgeDistance))
    |>.register "moveLeft" (Routine.nudge (-Routine.nudgeDistance) 0.0)
    |>.register "moveRight" (Routine.nudge Routine.nudgeDistance 0.0)
    |>.register "moveSteps" Routine.moveSteps
    |>.register "turnRight" (Routine.turn 1.0)
    |>.register "turnLeft" (Routine.turn (-1.0))
    |>.register "gotoXY" Routine.gotoXY
    |>.register "say" Routine.say
    |>.register "think" Routine.think
    |>.register "show" (Routine.present true)
    |>.register "hide" (Routine.present false)

end StagePlay
