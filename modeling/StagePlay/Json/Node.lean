import StagePlay.Json.Value

/-!
# Documents as they are found

A text that should be a document may break off or go wrong anywhere. `Node` is what such a text
holds up to there: a document whose parts may be missing or unreadable, with the `Fault` at the
place where it goes wrong. Whoever walks a node from left to right therefore meets its content and
its fault in the order of the text.

A part can be unreadable and still have a clear end, such as a number beyond every float. It is a
fault for whoever reads it, and none for whoever passes over it; broken scalars and texts carry
both.

* `Node.skip` — passing over a node;
* `Node.complete` — a node without any fault, as a `Value`;
* `Node.ofValue` — a document, found whole.
-/

namespace StagePlay.Json

/-- What is wrong with a text: it ends too early, or it is no document. -/
inductive Fault where
  | truncated
  | malformed
  deriving DecidableEq, Repr

/-- **A document as it is found.** The fault of an array or object stands where its next item or its
end should be. Keys are nodes, since anything may stand where a key should. -/
inductive Node where
  | null
  | bool (b : Bool)
  | number (n : Numeral)
  | text (s : String)
  | array (items : List Node) (fault : Option Fault)
  | object (members : List (Node × Node)) (fault : Option Fault)
  | missing (fault : Fault)
  | badScalar (read : Fault) (skip : Option Fault)
  | badText (read : Fault) (skip : Option Fault)
  deriving Repr

mutual

/-- A document, found whole. -/
def Node.ofValue : Value → Node
  | .null => .null
  | .bool b => .bool b
  | .number n => .number n
  | .text s => .text s
  | .array items => .array (nodesOfValues items) none
  | .object members => .object (nodesOfMembers members) none

/-- Documents, found whole. -/
def nodesOfValues : List Value → List Node
  | [] => []
  | item :: items => Node.ofValue item :: nodesOfValues items

/-- Members, found whole. -/
def nodesOfMembers : List (String × Value) → List (Node × Node)
  | [] => []
  | (key, value) :: members => (.text key, Node.ofValue value) :: nodesOfMembers members

end

/-- Fails where there is a fault. -/
def checkFault : Option Fault → Except Fault Unit
  | none => pure ()
  | some f => throw f

/-- The text of a key. Where no text stands, no key stands. -/
def Node.keyText : Node → Except Fault String
  | .text s => pure s
  | .badText read _ => throw read
  | .missing f => throw f
  | _ => throw .malformed

/-- Passing over a key. -/
def Node.skipKey : Node → Except Fault Unit
  | .text _ => pure ()
  | .badText _ skip => checkFault skip
  | .missing f => throw f
  | _ => throw .malformed

mutual

/-- **Passing over a node**: only faults that hide its end matter, however deep it is nested. -/
def Node.skip : Node → Except Fault Unit
  | .null => pure ()
  | .bool _ => pure ()
  | .number _ => pure ()
  | .text _ => pure ()
  | .array items fault => do skipItems items; checkFault fault
  | .object members fault => do skipMembers members; checkFault fault
  | .missing f => throw f
  | .badScalar _ skip => checkFault skip
  | .badText _ skip => checkFault skip

/-- Passing over items. -/
def skipItems : List Node → Except Fault Unit
  | [] => pure ()
  | item :: items => do item.skip; skipItems items

/-- Passing over members. -/
def skipMembers : List (Node × Node) → Except Fault Unit
  | [] => pure ()
  | (key, value) :: members => do key.skipKey; value.skip; skipMembers members

end

mutual

/-- **A node without any fault**, as a document. At most `left` arrays and objects may be open at
once. -/
def Node.complete : Nat → Node → Except Fault Value
  | _, .null => pure .null
  | _, .bool b => pure (.bool b)
  | _, .number n => pure (.number n)
  | _, .text s => pure (.text s)
  | 0, .array _ _ => throw .malformed
  | left + 1, .array items fault => do
    let values ← completeItems left items
    checkFault fault
    pure (.array values)
  | 0, .object _ _ => throw .malformed
  | left + 1, .object members fault => do
    let values ← completeMembers left members
    checkFault fault
    pure (.object values)
  | _, .missing f => throw f
  | _, .badScalar read _ => throw read
  | _, .badText read _ => throw read

/-- Items without any fault. -/
def completeItems : Nat → List Node → Except Fault (List Value)
  | _, [] => pure []
  | left, item :: items => do
    let value ← item.complete left
    let values ← completeItems left items
    pure (value :: values)

/-- Members without any fault. -/
def completeMembers : Nat → List (Node × Node) → Except Fault (List (String × Value))
  | _, [] => pure []
  | left, (key, value) :: members => do
    let name ← key.keyText
    let first ← value.complete left
    let others ← completeMembers left members
    pure ((name, first) :: others)

end

end StagePlay.Json
