import StagePlay.Actor.Codec
import StagePlay.Program.Codec

/-!
# Projects

A project is all that a run needs: a program, the actors and the backdrop. `Project.ofJson` reads
one from the text of its file, and `Project.encode` writes it.
-/

namespace StagePlay

open Json

/-- **A project.** -/
structure Project where
  program : Program
  actors : List Actor
  backdrop : Option Backdrop
  deriving Repr

namespace Project

/-- The project with nothing in it. -/
def empty : Project := ⟨.empty, [], none⟩

/-- A project that is being filled in. -/
structure Draft where
  program : Option Program := none
  actors : Option (List Actor) := none
  backdrop : Option (Option Backdrop) := none

/-- How a project is written, with `left` more levels allowed inside it. -/
def shape (left : Nat) : Shape Draft where
  name := "Project"
  fields :=
    [ { name := "program", aliases := [], presence := .required,
        filled := fun d => d.program.isSome,
        decode := fun node d => do
          let p ← Program.decode left node; pure { d with program := some p } },
      { name := "actors", aliases := [], presence := .optional,
        filled := fun d => d.actors.isSome,
        decode := fun node d => do
          let as ← decodeList (Actor.decode (left - 1)) left node
          pure { d with actors := some as } },
      { name := "background", aliases := [], presence := .optional,
        filled := fun d => d.backdrop.isSome,
        decode := fun node d => do
          let b ← decodeOption (Backdrop.decode left) node; pure { d with backdrop := some b } } ]
  blank := {}

/-- Reading a project. -/
def decode (left : Nat) (node : Node) : Except Error Project := do
  let d ← (shape (left - 1)).decode left node
  pure ⟨d.program.getD .empty, d.actors.getD [], d.backdrop.getD none⟩

/-- **Writing a project.** -/
def encode (p : Project) : Value :=
  .object
    [ ("actors", .array (p.actors.map Actor.encode)),
      ("background", .orNull Backdrop.encode p.backdrop),
      ("program", p.program.encode) ]

/-- **The project that a text holds.** -/
def ofJson (source : String) : Except Error Project := decodeSource decode source

end Project

end StagePlay
