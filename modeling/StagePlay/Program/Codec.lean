import StagePlay.Program.Basic
import StagePlay.Json.Decode

/-!
# Programs as documents

A program is an object with its blocks, a block an object with its id, its operation and what else
it has. The operation stands under `operationKind` or `kind`. An argument is a number or a text,
whatever else may be wrong with it.

A block inside another one lies two levels deeper, so `Block.decode` goes down by the number of
levels that are left.
-/

namespace StagePlay

open Json

/-! ### Arguments -/

/-- Reading an argument. The whole value is read before it is refused. -/
def Argument.decode (left : Nat) (node : Node) : Except Error Argument := do
  let value ← orFault (node.complete left)
  match value with
  | .number n => pure (.number n.toFloat)
  | .text s => pure (.text s)
  | _ => fail (.noVariantFits "ParamValue")

/-- Writing an argument. -/
def Argument.encode : Argument → Value
  | .number x => .float x
  | .text s => .text s

/-- Reading the members of an object as arguments. -/
def Arguments.decodeMembers (left : Nat) (fault : Option Fault) :
    List (Node × Node) → Arguments → Except Error Arguments
  | [], as => do
    orFault (checkFault fault)
    pure as
  | (key, value) :: members, as => do
    let name ← orFault key.keyText
    let a ← Argument.decode left value
    decodeMembers left fault members (as.insert name a)

/-- Reading arguments. A name may come again; its last argument counts. -/
def Arguments.decode (left : Nat) : Node → Except Error Arguments
  | .object members fault =>
    if left = 0 then malformed else decodeMembers (left - 1) fault members .empty
  | node => mismatch node "a map"

/-- Writing arguments. -/
def Arguments.encode (as : Arguments) : Value :=
  .object (as.entries.map fun e => (e.1, e.2.encode))

/-! ### Operations -/

/-- Reading an operation, which any text is. -/
def Operation.decode (node : Node) : Except Error Operation := do
  let s ← decodeText node
  pure (.ofTag s)

/-- Writing an operation. -/
def Operation.encode (o : Operation) : Value := .text o.tag

/-! ### Blocks -/

/-- A block that is being filled in. -/
structure Block.Draft where
  id : Option String := none
  operation : Option Operation := none
  arguments : Option Arguments := none
  children : Option (List String) := none
  next : Option (Option String) := none
  blocks : Option (List Block) := none

/-- How a block is written, with `left` more levels allowed inside it; `nested` reads a block
declared inside it. -/
def Block.shape (left : Nat) (nested : Node → Except Error Block) : Shape Block.Draft where
  name := "Block"
  fields :=
    [ { name := "id", aliases := [], presence := .required, filled := fun d => d.id.isSome,
        decode := fun node d => do let s ← decodeText node; pure { d with id := some s } },
      { name := "operationKind", aliases := ["kind"], presence := .required,
        filled := fun d => d.operation.isSome,
        decode := fun node d => do
          let o ← Operation.decode node; pure { d with operation := some o } },
      { name := "parameters", aliases := [], presence := .optional,
        filled := fun d => d.arguments.isSome,
        decode := fun node d => do
          let as ← Arguments.decode left node; pure { d with arguments := some as } },
      { name := "children", aliases := [], presence := .optional,
        filled := fun d => d.children.isSome,
        decode := fun node d => do
          let ids ← decodeList decodeText left node; pure { d with children := some ids } },
      { name := "next", aliases := [], presence := .optional, filled := fun d => d.next.isSome,
        decode := fun node d => do
          let id ← decodeOption decodeText node; pure { d with next := some id } },
      { name := "blocks", aliases := [], presence := .optional, filled := fun d => d.blocks.isSome,
        decode := fun node d => do
          let bs ← decodeList nested left node; pure { d with blocks := some bs } } ]
  blank := {}

/-- The block that is filled in. -/
def Block.Draft.block (d : Block.Draft) : Block :=
  { id := d.id.getD ""
    operation := d.operation.getD (.custom "")
    arguments := d.arguments.getD .empty
    children := d.children.getD []
    next := d.next.getD none
    blocks := d.blocks.getD [] }

/-- **Reading a block**, and the blocks declared inside it as far as the levels allow. -/
def Block.decode : Nat → Node → Except Error Block
  | 0, node => do
    let d ← (shape 0 fun _ => malformed).decode 0 node
    pure d.block
  | 1, node => do
    let d ← (shape 0 fun _ => malformed).decode 1 node
    pure d.block
  | left + 2, node => do
    let d ← (shape (left + 1) (Block.decode left)).decode (left + 2) node
    pure d.block

mutual

/-- **Writing a block.** Empty lists and an absent next block are left out. -/
def Block.encode : Block → Value
  | ⟨id, operation, arguments, children, next, blocks⟩ =>
    .object
      ((match blocks with
        | [] => []
        | b :: bs => [("blocks", .array (b.encode :: encodeBlocks bs))]) ++
       (match children with
        | [] => []
        | _ :: _ => [("children", .array (children.map .text))]) ++
       [("id", .text id)] ++
       (match next with
        | none => []
        | some n => [("next", .text n)]) ++
       [("operationKind", operation.encode), ("parameters", arguments.encode)])

/-- Writing blocks. -/
def encodeBlocks : List Block → List Value
  | [] => []
  | b :: bs => b.encode :: encodeBlocks bs

end

/-! ### Programs -/

/-- A program that is being filled in. -/
structure Program.Draft where
  blocks : Option (List Block) := none

/-- How a program is written, with `left` more levels allowed inside it. -/
def Program.shape (left : Nat) : Shape Program.Draft where
  name := "ProgramDef"
  fields :=
    [ { name := "blocks", aliases := [], presence := .optional, filled := fun d => d.blocks.isSome,
        decode := fun node d => do
          let bs ← decodeList (Block.decode (left - 1)) left node
          pure { d with blocks := some bs } } ]
  blank := {}

/-- Reading a program. -/
def Program.decode (left : Nat) (node : Node) : Except Error Program := do
  let d ← (shape (left - 1)).decode left node
  pure (.ofBlocks (d.blocks.getD []))

/-- Writing a program: the blocks as they were declared. -/
def Program.encode (p : Program) : Value := .object [("blocks", .array (encodeBlocks p.roots))]

/-- **The program that a text holds.** -/
def Program.ofJson (source : String) : Except Error Program := decodeSource decode source

end StagePlay
