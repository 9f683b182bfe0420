import StagePlay.Actor.Basic
import StagePlay.Json.Decode

/-!
# Actors as documents

How actors, backdrops and figures are written and read. Records are objects; what is said is an
object with the manner under `kind` and the words under `text`, read with its keys in either order.

Every `encode` writes its keys in increasing order, and every `decode` takes the number of arrays
and objects that may still be opened.
-/

namespace StagePlay

open Json

/-! ### Declared actors -/

/-- An actor that is being filled in. -/
structure Actor.Draft where
  id : Option String := none
  name : Option String := none
  imageRef : Option String := none

/-- How an actor is written. -/
def Actor.shape : Shape Actor.Draft where
  name := "ActorDecl"
  fields :=
    [ { name := "id", aliases := [], presence := .required, filled := fun d => d.id.isSome,
        decode := fun node d => do let s ← decodeText node; pure { d with id := some s } },
      { name := "name", aliases := [], presence := .required, filled := fun d => d.name.isSome,
        decode := fun node d => do let s ← decodeText node; pure { d with name := some s } },
      { name := "imageRef", aliases := [], presence := .optional,
        filled := fun d => d.imageRef.isSome,
        decode := fun node d => do let s ← decodeText node; pure { d with imageRef := some s } } ]
  blank := {}

/-- Reading an actor. Without an image it has the empty one. -/
def Actor.decode (left : Nat) (node : Node) : Except Error Actor := do
  let d ← shape.decode left node
  pure ⟨d.id.getD "", d.name.getD "", d.imageRef.getD ""⟩

/-- Writing an actor. -/
def Actor.encode (a : Actor) : Value :=
  .object [("id", .text a.id), ("imageRef", .text a.imageRef), ("name", .text a.name)]

/-! ### Backdrops -/

/-- A backdrop that is being filled in. -/
structure Backdrop.Draft where
  imageRef : Option String := none
  name : Option String := none

/-- How a backdrop is written. -/
def Backdrop.shape : Shape Backdrop.Draft where
  name := "Background"
  fields :=
    [ { name := "imageRef", aliases := [], presence := .required,
        filled := fun d => d.imageRef.isSome,
        decode := fun node d => do let s ← decodeText node; pure { d with imageRef := some s } },
      { name := "name", aliases := [], presence := .optional, filled := fun d => d.name.isSome,
        decode := fun node d => do let s ← decodeText node; pure { d with name := some s } } ]
  blank := {}

/-- Reading a backdrop. Without a name it has the empty one. -/
def Backdrop.decode (left : Nat) (node : Node) : Except Error Backdrop := do
  let d ← shape.decode left node
  pure ⟨d.imageRef.getD "", d.name.getD ""⟩

/-- Writing a backdrop. -/
def Backdrop.encode (b : Backdrop) : Value :=
  .object [("imageRef", .text b.imageRef), ("name", .text b.name)]

/-! ### Places -/

/-- A place that is being filled in. -/
structure Point.Draft where
  x : Option Float := none
  y : Option Float := none

/-- How a place is written. -/
def Point.shape : Shape Point.Draft where
  name := "Position"
  fields :=
    [ { name := "x", aliases := [], presence := .required, filled := fun d => d.x.isSome,
        decode := fun node d => do let v ← decodeFloat node; pure { d with x := some v } },
      { name := "y", aliases := [], presence := .required, filled := fun d => d.y.isSome,
        decode := fun node d => do let v ← decodeFloat node; pure { d with y := some v } } ]
  blank := {}

/-- Reading a place. -/
def Point.decode (left : Nat) (node : Node) : Except Error Point := do
  let d ← shape.decode left node
  pure ⟨d.x.getD 0.0, d.y.getD 0.0⟩

/-- Writing a place. -/
def Point.encode (p : Point) : Value := .object [("x", .float p.x), ("y", .float p.y)]

/-! ### What is said -/

/-- The manners of speech, by name. -/
inductive Speech.Manner where
  | silent
  | say
  | think
  deriving DecidableEq, Repr

/-- The names of the manners. -/
def Speech.manners : List (String × Speech.Manner) :=
  [("none", .silent), ("say", .say), ("think", .think)]

/-- The words of a manner: none where nothing is said. -/
def Speech.decodeWords (left : Nat) (manner : Speech.Manner) (node : Node) :
    Except Error Speech :=
  match manner with
  | .silent =>
    match node with
    | .null => pure .silent
    | .array _ _ => if left = 0 then malformed else mismatch node "unit variant Speech::None"
    | .object _ _ => if left = 0 then malformed else mismatch node "unit variant Speech::None"
    | _ => mismatch node "unit variant Speech::None"
  | .say => do let s ← decodeText node; pure (.say s)
  | .think => do let s ← decodeText node; pure (.think s)

/-- Only saying nothing needs no words. -/
def Speech.withoutWords : Speech.Manner → Except Error Speech
  | .silent => pure .silent
  | _ => fail (.missingField "text")

/-- The part of an object up to its next key that counts, which is `kind` or `text`: whether that
key is `kind`, its value and the members after it. Other members are passed over. -/
def Speech.nextMember :
    List (Node × Node) → Except Error (Option (Bool × Node × List (Node × Node)))
  | [] => pure none
  | (key, value) :: members => do
    let name ← orFault key.keyText
    if name = "kind" then pure (some (true, value, members))
    else if name = "text" then pure (some (false, value, members))
    else do
      orFault value.skip
      nextMember members

/-- After both keys neither may come again. -/
def Speech.noMoreMembers (members : List (Node × Node)) : Except Error Unit := do
  match ← nextMember members with
  | none => pure ()
  | some (true, _, _) => fail (.duplicateField "kind")
  | some (false, _, _) => fail (.duplicateField "text")

/-- The members of an object that says what is said. Words that come first are read as whatever they
are until the manner is known. -/
def Speech.decodeMembers (left : Nat) (members : List (Node × Node)) (fault : Option Fault) :
    Except Error Speech := do
  match ← nextMember members with
  | none =>
    orFault (checkFault fault)
    fail (.missingField "kind")
  | some (true, kind, members) =>
    let manner ← decodeVariant manners left kind
    match ← nextMember members with
    | none =>
      orFault (checkFault fault)
      withoutWords manner
    | some (true, _, _) => fail (.duplicateField "kind")
    | some (false, words, members) =>
      let speech ← decodeWords left manner words
      noMoreMembers members
      pure speech
  | some (false, words, members) =>
    let held ← orFault (words.complete left)
    match ← nextMember members with
    | none =>
      orFault (checkFault fault)
      fail (.missingField "kind")
    | some (false, _, _) => fail (.duplicateField "text")
    | some (true, kind, members) =>
      let manner ← decodeVariant manners left kind
      let speech ← decodeWords depthLimit manner (Node.ofValue held)
      noMoreMembers members
      pure speech

/-- **Reading what is said**: an object, or an array of the manner and the words. -/
def Speech.decode (left : Nat) : Node → Except Error Speech
  | .array items fault =>
    if left = 0 then malformed
    else
      let tooShort (n : Nat) : Except Error Speech := do
        orFault (checkFault fault)
        fail (.wrongLength n "adjacently tagged enum Speech")
      match items with
      | [] => tooShort 0
      | [kind] => do
        let _ ← decodeVariant manners (left - 1) kind
        tooShort 1
      | kind :: words :: others => do
        let manner ← decodeVariant manners (left - 1) kind
        let speech ← decodeWords (left - 1) manner words
        if others.isEmpty then do
          orFault (checkFault fault)
          pure speech
        else malformed
  | .object members fault =>
    if left = 0 then malformed
    else do
      let speech ← decodeMembers (left - 1) members fault
      orFault (checkFault fault)
      pure speech
  | node => mismatch node "adjacently tagged enum Speech"

/-- Writing what is said. -/
def Speech.encode : Speech → Value
  | .silent => .object [("kind", .text "none")]
  | .say s => .object [("kind", .text "say"), ("text", .text s)]
  | .think s => .object [("kind", .text "think"), ("text", .text s)]

/-! ### Figures -/

/-- A figure that is being filled in. -/
structure Figure.Draft where
  id : Option String := none
  name : Option String := none
  imageRef : Option String := none
  position : Option Point := none
  heading : Option Float := none
  scale : Option Float := none
  visible : Option Bool := none
  speech : Option Speech := none

/-- How a figure is written, with `left` more arrays and objects allowed inside it. -/
def Figure.shape (left : Nat) : Shape Figure.Draft where
  name := "ActorState"
  fields :=
    [ { name := "id", aliases := [], presence := .required, filled := fun d => d.id.isSome,
        decode := fun node d => do let s ← decodeText node; pure { d with id := some s } },
      { name := "name", aliases := [], presence := .required, filled := fun d => d.name.isSome,
        decode := fun node d => do let s ← decodeText node; pure { d with name := some s } },
      { name := "imageRef", aliases := [], presence := .required,
        filled := fun d => d.imageRef.isSome,
        decode := fun node d => do let s ← decodeText node; pure { d with imageRef := some s } },
      { name := "position", aliases := [], presence := .required,
        filled := fun d => d.position.isSome,
        decode := fun node d => do
          let p ← Point.decode left node; pure { d with position := some p } },
      { name := "heading", aliases := [], presence := .required,
        filled := fun d => d.heading.isSome,
        decode := fun node d => do let v ← decodeFloat node; pure { d with heading := some v } },
      { name := "scale", aliases := [], presence := .required, filled := fun d => d.scale.isSome,
        decode := fun node d => do let v ← decodeFloat node; pure { d with scale := some v } },
      { name := "visible", aliases := [], presence := .required,
        filled := fun d => d.visible.isSome,
        decode := fun node d => do let b ← decodeBool node; pure { d with visible := some b } },
      { name := "speech", aliases := [], presence := .required, filled := fun d => d.speech.isSome,
        decode := fun node d => do
          let s ← Speech.decode left node; pure { d with speech := some s } } ]
  blank := {}

/-- Reading a figure. -/
def Figure.decode (left : Nat) (node : Node) : Except Error Figure := do
  let d ← (shape (left - 1)).decode left node
  pure
    { id := d.id.getD ""
      name := d.name.getD ""
      imageRef := d.imageRef.getD ""
      position := d.position.getD .centre
      heading := d.heading.getD 0.0
      scale := d.scale.getD 1.0
      visible := d.visible.getD true
      speech := d.speech.getD .silent }

/-- Writing a figure. -/
def Figure.encode (f : Figure) : Value :=
  .object
    [ ("heading", .float f.heading), ("id", .text f.id), ("imageRef", .text f.imageRef),
      ("name", .text f.name), ("position", f.position.encode), ("scale", .float f.scale),
      ("speech", f.speech.encode), ("visible", .bool f.visible) ]

end StagePlay
