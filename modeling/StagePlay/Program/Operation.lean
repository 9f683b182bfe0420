/-!
# Operations

What a block does is named by a tag. The tags that the library knows are the constructors of
`Operation`; every other tag is kept as it is, in `Operation.custom`, so that someone else's routine
can stand for it.

`Operation.ofTag` and `Operation.tag` go back and forth between operations and tags, and no tag is
lost on the way (`tag_ofTag`).
-/

namespace StagePlay

/-- **What a block does.** -/
inductive Operation where
  | start
  | moveSteps
  | moveUp
  | moveDown
  | moveLeft
  | moveRight
  | turnRight
  | turnLeft
  | gotoXY
  | say
  | think
  | «show»
  | hide
  | wait
  | repeatCount
  | repeatForever
  | custom (tag : String)
  deriving DecidableEq, Repr

namespace Operation

/-- The tag of an operation. -/
def tag : Operation → String
  | start => "start"
  | moveSteps => "moveSteps"
  | moveUp => "moveUp"
  | moveDown => "moveDown"
  | moveLeft => "moveLeft"
  | moveRight => "moveRight"
  | turnRight => "turnRight"
  | turnLeft => "turnLeft"
  | gotoXY => "gotoXY"
  | say => "say"
  | think => "think"
  | «show» => "show"
  | hide => "hide"
  | wait => "wait"
  | repeatCount => "repeatCount"
  | repeatForever => "repeatForever"
  | custom tag => tag

/-- **The operation that a tag names.** Tags are told apart by case, and a tag that the library does
not know is kept. The tags stand here once more, beside those of `Operation.tag`. -/
def ofTag (s : String) : Operation :=
  match s with
  | "start" => start
  | "moveSteps" => moveSteps
  | "moveUp" => moveUp
  | "moveDown" => moveDown
  | "moveLeft" => moveLeft
  | "moveRight" => moveRight
  | "turnRight" => turnRight
  | "turnLeft" => turnLeft
  | "gotoXY" => gotoXY
  | "say" => say
  | "think" => think
  | "show" => «show»
  | "hide" => hide
  | "wait" => wait
  | "repeatCount" => repeatCount
  | "repeatForever" => repeatForever
  | other => custom other

/-- Whether an operation has no tag of its own. -/
def isCustom : Operation → Bool
  | custom _ => true
  | _ => false

/-- Whether an operation repeats a body. -/
def isContainer : Operation → Bool
  | repeatCount | repeatForever => true
  | _ => false

/-- **No tag is lost**: the two tables of tags agree, entry by entry, and a tag beyond them is kept as
it is. -/
theorem tag_ofTag (s : String) : (ofTag s).tag = s := by
  unfold ofTag
  split <;> rfl

end Operation

end StagePlay
