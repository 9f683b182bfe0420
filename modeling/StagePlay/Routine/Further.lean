import StagePlay.Routine.Builtin

/-!
# Further routines

Routines that a host can register under kinds of its own, beside those of the language. Between them
they do everything that a routine can: change the owner at once or over time, speak to the outside,
take notes, give up and break down.

`Routine.named?` finds a routine, of these or of the language, by its name.
-/

namespace StagePlay.Routine

/-- A new heading at once. -/
def spin : Routine := fun _ b =>
  ⟨[.change (.toHeading ((b.number? "degrees").getD 180.0))], .goOn⟩

/-- A new size at once. -/
def grow : Routine := fun _ b =>
  ⟨[.change (.toScale ((b.number? "factor").getD 2.0))], .goOn⟩

/-- A new size over some seconds, from the size as declared. -/
def inflate : Routine := fun _ b =>
  ⟨[], .animate (.ofSeconds ((b.number? "seconds").getD 0.5))
    (.grow 1.0 ((b.number? "factor").getD 2.0))⟩

/-- The end of the chain, as if it had been called off. -/
def bail : Routine := fun _ _ => ⟨[], .giveUp⟩

/-- A word to the outside. -/
def shout : Routine := fun _ _ => ⟨[.announce "shout"], .goOn⟩

/-- A note of the cue. -/
def probe : Routine := fun _ _ => ⟨[.note], .goOn⟩

/-- The end of the chain by a breakdown. -/
def explode : Routine := fun _ _ => ⟨[], .breakDown⟩

/-- The routines by name. -/
def names : List (String × Routine) :=
  [("wait", wait), ("moveUp", nudge 0.0 nudgeDistance), ("moveSteps", moveSteps),
   ("turnLeft", turn (-1.0)), ("gotoXY", gotoXY), ("say", say), ("hide", present false),
   ("structural", structural), ("spin", spin), ("grow", grow), ("inflate", inflate),
   ("bail", bail), ("shout", shout), ("probe", probe), ("explode", explode)]

/-- **The routine of a name.** -/
def named? (name : String) : Option Routine := names.lookup name

end StagePlay.Routine
