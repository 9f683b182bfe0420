/-!
# Actors

An `Actor` is declared before a run; on the stage it is a `Figure`, with a place, a heading, a size,
a visibility and what it says. A `Change` gives new values for some of these, and `Figure.apply`
carries it out, field by field.

`Change.andThen` is two changes in a row as one: where both give a value, the later one counts.
-/

namespace StagePlay

/-- An actor as it is declared. -/
structure Actor where
  id : String
  name : String
  imageRef : String
  deriving DecidableEq, Repr

/-- What stands behind the actors. -/
structure Backdrop where
  imageRef : String
  name : String
  deriving DecidableEq, Repr

/-- A place on the stage, counted from its centre. -/
structure Point where
  x : Float
  y : Float
  deriving DecidableEq, Repr

/-- The centre of the stage. -/
def Point.centre : Point := ⟨0.0, 0.0⟩

/-- What an actor is saying or thinking. -/
inductive Speech where
  | silent
  | say (words : String)
  | think (words : String)
  deriving DecidableEq, Repr

/-- **An actor on the stage.** The heading is in degrees, 0 is ahead, and it is never brought back
below 360. -/
structure Figure where
  id : String
  name : String
  imageRef : String
  position : Point
  heading : Float
  scale : Float
  visible : Bool
  speech : Speech
  deriving DecidableEq, Repr

/-- A declared actor as it comes on: in the centre, facing ahead, visible and silent. -/
def Figure.ofActor (a : Actor) : Figure :=
  ⟨a.id, a.name, a.imageRef, .centre, 0.0, 1.0, true, .silent⟩

/-- **A change** of a figure: a new value for each field that it names. -/
structure Change where
  position : Option Point := none
  heading : Option Float := none
  scale : Option Float := none
  visible : Option Bool := none
  speech : Option Speech := none
  deriving DecidableEq, Repr

namespace Change

/-- The change that names nothing. -/
def nothing : Change := {}

/-- A move to a place. -/
def toPosition (p : Point) : Change := { position := some p }

/-- A turn to a heading. -/
def toHeading (h : Float) : Change := { heading := some h }

/-- A new size. -/
def toScale (s : Float) : Change := { scale := some s }

/-- A new visibility. -/
def toVisible (v : Bool) : Change := { visible := some v }

/-- Something new said. -/
def toSpeech (s : Speech) : Change := { speech := some s }

/-- Whether a change names nothing. -/
def isEmpty (c : Change) : Bool := c = nothing

/-- **Two changes in a row** as one. -/
def andThen (first second : Change) : Change where
  position := second.position.or first.position
  heading := second.heading.or first.heading
  scale := second.scale.or first.scale
  visible := second.visible.or first.visible
  speech := second.speech.or first.speech

end Change

/-- **Carrying out a change.** What it does not name stays. -/
def Figure.apply (f : Figure) (c : Change) : Figure :=
  { f with
    position := c.position.getD f.position
    heading := c.heading.getD f.heading
    scale := c.scale.getD f.scale
    visible := c.visible.getD f.visible
    speech := c.speech.getD f.speech }

/-- A change keeps who the figure is. -/
@[simp] theorem Figure.id_apply (f : Figure) (c : Change) : (f.apply c).id = f.id := rfl

/-- The change that names nothing keeps the figure. -/
@[simp] theorem Figure.apply_nothing (f : Figure) : f.apply .nothing = f := rfl

end StagePlay
