import StagePlay.Motion.Tween
import StagePlay.Program.Block
import StagePlay.Stage.Basic

/-!
# Routines

A routine says what a block does. It is given a `Cue`, which is all that it may look at, and answers
with an `Act`: what it does at once (`Effect`), and how it then lets time pass (`Lapse`).

A routine acts for the owner of its chain. An owner that is not on the stage cannot be changed, but
time passes for it as well.
-/

namespace StagePlay

/-- **What a routine can look at** when its turn comes. The operation that it carries out is counted
already. -/
structure Cue where
  owner : Option String
  stage : Stage
  operations : Nat
  cancelled : Bool
  deriving DecidableEq, Repr

/-- The figure of the owner, if it is on the stage. -/
def Cue.figure? (c : Cue) : Option Figure := c.owner.bind c.stage.figure?

/-- **What is done at once.** -/
inductive Effect where
  /-- A change of the owner's figure. -/
  | change (c : Change)
  /-- A word to the outside that an operation of some kind is not known. -/
  | announce (kind : String)
  /-- A note of the cue. -/
  | note
  deriving DecidableEq, Repr

/-- **How time passes** after what was done at once. Only a routine of somebody else gives up or
breaks down. -/
inductive Lapse where
  /-- The chain goes on without a pause. -/
  | goOn
  /-- The chain ends as if it had been called off. -/
  | giveUp
  /-- The chain breaks down. -/
  | breakDown
  /-- The chain goes on after a pause. -/
  | pause (d : Duration)
  /-- The chain goes on after the last frame of a motion of the owner. -/
  | animate (d : Duration) (m : Motion)
  deriving DecidableEq, Repr

/-- **What a routine does.** -/
structure Act where
  effects : List Effect
  lapse : Lapse
  deriving DecidableEq, Repr

/-- What a block of some kind does. -/
abbrev Routine := Cue → Block → Act

namespace Act

/-- Doing nothing. -/
def nothing : Act := ⟨[], .goOn⟩

/-- Letting some milliseconds pass. -/
def pauseFor (ms : Nat) : Act := ⟨[], .pause (.ofMillis ms)⟩

/-- A change, and some milliseconds in which it can be seen. -/
def showFor (c : Change) (ms : Nat) : Act := ⟨[.change c], .pause (.ofMillis ms)⟩

end Act

/-- What is done for a block whose kind has no routine: it is announced, and a little time passes.
-/
def unknownOperation (kind : String) : Act := ⟨[.announce kind], .pause (.ofMillis 200)⟩

/-! ### Routines by kind -/

/-- **The routines that are known**, each for a kind of operation. For one kind the first entry
counts. -/
structure Repertoire where
  entries : List (String × Routine)

namespace Repertoire

/-- The repertoire in which nothing is known. -/
def empty : Repertoire := ⟨[]⟩

/-- A routine for a kind, in place of the one it had, be it one of the language. -/
def register (r : Repertoire) (kind : String) (routine : Routine) : Repertoire :=
  ⟨(kind, routine) :: r.entries⟩

/-- The routine of a kind. -/
def find? (r : Repertoire) (kind : String) : Option Routine := r.entries.lookup kind

/-- Whether a kind has a routine. -/
def contains (r : Repertoire) (kind : String) : Bool := (r.find? kind).isSome

/-- **What a block does**, by the routine of its kind. The kind is told by the tag, so that a custom
operation of that tag has the routine, too. -/
def act (r : Repertoire) (cue : Cue) (b : Block) : Act :=
  match r.find? b.operation.tag with
  | some routine => routine cue b
  | none => unknownOperation b.operation.tag

end Repertoire

end StagePlay
