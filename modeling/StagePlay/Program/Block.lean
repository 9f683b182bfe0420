import StagePlay.Program.Argument
import StagePlay.Program.Operation

/-!
# Blocks

A block names its operation, the block that follows it, and, if it repeats a body, the first blocks
of that body. Blocks may be declared inside others; that is only a place to write them down.

* `Block.number?`, `Block.text?` — the arguments of a block;
* `Block.rounds` — how often its body runs;
* `Block.shallow` — the block without the blocks declared inside it.
-/

namespace StagePlay

open Number

/-- **A block** of a program. -/
structure Block where
  id : String
  operation : Operation
  arguments : Arguments
  children : List String
  next : Option String
  blocks : List Block
  deriving Repr

namespace Block

/-- The number that an argument stands for. -/
def number? (b : Block) (name : String) : Option Float :=
  (b.arguments.get? name).bind Argument.number?

/-- An argument as text. -/
def text? (b : Block) (name : String) : Option String := (b.arguments.get? name).map Argument.shown

/-- The block without the blocks declared inside it. -/
def shallow (b : Block) : Block := { b with blocks := [] }

/-- How often a body runs that is to run forever. -/
def foreverRounds : Nat := 3

/-- How often a body runs if it is not said how often. -/
def defaultTimes : Float := 10.0

/-- The most rounds that can be counted. -/
def mostRounds : Nat := mostWord

/-- **How often the body of a block runs**: the number of times nearest to the one that is given. -/
def rounds (b : Block) : Nat :=
  match b.operation with
  | .repeatCount => nearestNat mostRounds ((b.number? "times").getD defaultTimes)
  | .repeatForever => foreverRounds
  | _ => 0

end Block

end StagePlay
