import StagePlay.Actor.Codec
import StagePlay.Stage.Basic

/-!
# Stages as documents

The form in which a stage is shown to the outside: an object with the backdrop, which may be absent,
and the figures.
-/

namespace StagePlay

open Json

/-- A stage that is being filled in. -/
structure Stage.Draft where
  backdrop : Option (Option Backdrop) := none
  figures : Option (List Figure) := none

/-- How a stage is written, with `left` more levels allowed inside it. -/
def Stage.shape (left : Nat) : Shape Stage.Draft where
  name := "StageSnapshot"
  fields :=
    [ { name := "background", aliases := [], presence := .optionalKey,
        filled := fun d => d.backdrop.isSome,
        decode := fun node d => do
          let b ← decodeOption (Backdrop.decode left) node; pure { d with backdrop := some b } },
      { name := "actors", aliases := [], presence := .required,
        filled := fun d => d.figures.isSome,
        decode := fun node d => do
          let fs ← decodeList (Figure.decode (left - 1)) left node
          pure { d with figures := some fs } } ]
  blank := {}

/-- **Reading a stage.** -/
def Stage.decode (left : Nat) (node : Node) : Except Error Stage := do
  let d ← (shape (left - 1)).decode left node
  pure ⟨d.backdrop.getD none, d.figures.getD []⟩

/-- **Writing a stage.** -/
def Stage.encode (s : Stage) : Value :=
  .object
    [ ("actors", .array (s.figures.map Figure.encode)),
      ("background", .orNull Backdrop.encode s.backdrop) ]

end StagePlay
