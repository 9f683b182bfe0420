import StagePlay.Program.Block

/-!
# Programs

A program is a list of blocks, each found by its id wherever it is declared. Where several blocks
have one id, the first one counts, a block coming before the blocks declared inside it.

* `Program.ofBlocks` — the program of a list of blocks;
* `Program.find?` — the block of an id;
* `Program.starts` — the blocks at the top that start a chain, as they are declared.
-/

namespace StagePlay

mutual

/-- Entering a block, and then the blocks declared inside it, if its id is new. -/
def Block.enter (index : List (String × Block)) : Block → List (String × Block)
  | ⟨id, operation, arguments, children, next, blocks⟩ =>
    -- an id that is taken keeps its block, but what is declared inside this one still counts
    let own := if (index.lookup id).isSome then index
      else index ++ [(id, ⟨id, operation, arguments, children, next, []⟩)]
    enterBlocks own blocks

/-- Entering blocks one after the other. -/
def enterBlocks (index : List (String × Block)) : List Block → List (String × Block)
  | [] => index
  | b :: bs => enterBlocks (b.enter index) bs

end

/-- **A program**: its blocks as they are declared, and each block by its id, without those declared
inside it. -/
structure Program where
  roots : List Block
  index : List (String × Block)
  deriving Repr

namespace Program

/-- The program of a list of blocks. -/
def ofBlocks (roots : List Block) : Program := ⟨roots, enterBlocks [] roots⟩

/-- The program without blocks. -/
def empty : Program := ofBlocks []

/-- How many blocks can be found. -/
def size (p : Program) : Nat := p.index.length

/-- The block of an id. -/
def find? (p : Program) (id : String) : Option Block := p.index.lookup id

/-- The blocks at the top that start a chain. -/
def starts (p : Program) : List Block := p.roots.filter fun b => b.operation = .start

/-- The block after another one in its chain. -/
def next? (p : Program) (b : Block) : Option Block := b.next.bind p.find?

end Program

end StagePlay
