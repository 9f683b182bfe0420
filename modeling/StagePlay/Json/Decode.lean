import StagePlay.Json.Reader
import StagePlay.Text.Quoted

/-!
# Decoding a document

A decoder takes a node and walks it from left to right, so that the first thing wrong with the text
is the one it reports, whether the text is no document (`Fault`) or holds the wrong data
(`Problem`).

* `Error` — what can be wrong, and `Error.message?`, its text;
* `Shape` — a record with named fields, written as an object in any order or as an array in the
  order of the fields; `Shape.decode` reads both forms;
* `decodeVariant` — a choice written as its name;
* `decodeSource` — a decoder on a whole text.

Arrays and objects may be nested `depthLimit` deep; `left` counts how many more may be opened.
-/

namespace StagePlay.Json

open StagePlay.Number StagePlay.Text

/-! ### What can be wrong -/

/-- What was found where something else was expected. -/
inductive Found where
  | null
  | bool (b : Bool)
  | number (n : Numeral)
  | text (s : String)
  | sequence
  | map
  deriving DecidableEq, Repr

/-- A whole number as text. -/
def intText (i : Int) : String := String.ofList (printInt i [])

/-- What was found, in words. -/
def Found.describe : Found → String
  | .null => "null"
  | .bool true => "boolean `true`"
  | .bool false => "boolean `false`"
  | .number (.int i) => "integer `" ++ intText i ++ "`"
  | .number (.real x) => "floating point `" ++ Layout.document.write x ++ "`"
  | .text s => "string " ++ quote s
  | .sequence => "sequence"
  | .map => "map"

/-- **Wrong data** in a well-formed document. -/
inductive Problem where
  | wrongType (found : Found) (expected : String)
  | wrongValue (found : Found) (expected : String)
  | wrongLength (length : Nat) (expected : String)
  | missingField (name : String)
  | duplicateField (name : String)
  | unknownVariant (name : String) (known : List String)
  | noVariantFits (type : String)
  | badIdentifier (reason : String)
  deriving DecidableEq, Repr

/-- The names of a choice, in words. -/
def describeNames (names : List String) : String :=
  let quoted := names.map fun name => "`" ++ name ++ "`"
  match quoted with
  | [a, b] => a ++ " or " ++ b
  | [a] => a
  | _ => "one of " ++ String.intercalate ", " quoted

/-- The message of wrong data. -/
def Problem.message : Problem → String
  | .wrongType found expected =>
    "invalid type: " ++ found.describe ++ ", expected " ++ expected
  | .wrongValue found expected =>
    "invalid value: " ++ found.describe ++ ", expected " ++ expected
  | .wrongLength length expected =>
    "invalid length " ++ intText length ++ ", expected " ++ expected
  | .missingField name => "missing field `" ++ name ++ "`"
  | .duplicateField name => "duplicate field `" ++ name ++ "`"
  | .unknownVariant name known =>
    "unknown variant `" ++ name ++ "`, expected " ++ describeNames known
  | .noVariantFits type => "data did not match any variant of untagged enum " ++ type
  | .badIdentifier reason => "UUID parsing failed: " ++ reason

/-- **The first thing wrong** with a text. -/
inductive Error where
  | fault (f : Fault)
  | problem (p : Problem)
  deriving DecidableEq, Repr

/-- The message of an error, where it has one of its own. -/
def Error.message? : Error → Option String
  | .fault _ => none
  | .problem p => some p.message

/-- A step that can only meet a fault. -/
def orFault {α : Type} : Except Fault α → Except Error α
  | .ok a => .ok a
  | .error f => .error (.fault f)

/-- Fails with wrong data. -/
def fail {α : Type} (p : Problem) : Except Error α := .error (.problem p)

/-- Fails because the text is no document. -/
def malformed {α : Type} : Except Error α := .error (.fault .malformed)

/-! ### Single values -/

/-- What a node is, if it can be read at all. -/
def Node.found : Node → Except Error Found
  | .null => .ok .null
  | .bool b => .ok (.bool b)
  | .number n => .ok (.number n)
  | .text s => .ok (.text s)
  | .array _ _ => .ok .sequence
  | .object _ _ => .ok .map
  | .missing f => .error (.fault f)
  | .badScalar read _ => .error (.fault read)
  | .badText read _ => .error (.fault read)

/-- Fails because `node` is not what was expected. A node that cannot even be read fails with its
own fault. -/
def mismatch {α : Type} (node : Node) (expected : String) : Except Error α := do
  let found ← node.found
  fail (.wrongType found expected)

/-- A text. -/
def decodeText : Node → Except Error String
  | .text s => .ok s
  | node => mismatch node "a string"

/-- A truth value. -/
def decodeBool : Node → Except Error Bool
  | .bool b => .ok b
  | node => mismatch node "a boolean"

/-- A float, from any number, be it a whole one. -/
def decodeFloat : Node → Except Error Float
  | .number n => .ok n.toFloat
  | node => mismatch node "f64"

/-- A natural number. A negative one is a wrong value and not a wrong type. -/
def decodeNat : Node → Except Error Nat
  | .number (.int i) =>
    if 0 ≤ i then .ok i.toNat else fail (.wrongValue (.number (.int i)) "u64")
  | node => mismatch node "u64"

/-- Something, or `null`. -/
def decodeOption {α : Type} (decode : Node → Except Error α) : Node → Except Error (Option α)
  | .null => .ok none
  | node => (decode node).map some

/-- Each item in turn, then the fault. An item that is wrong is met before a fault behind it. -/
def decodeItems {α : Type} (decode : Node → Except Error α) (fault : Option Fault) :
    List Node → Except Error (List α)
  | [] => do
    orFault (checkFault fault)
    pure []
  | item :: items => do
    let a ← decode item
    let others ← decodeItems decode fault items
    pure (a :: others)

/-- An array of things, which takes one level of nesting. -/
def decodeList {α : Type} (decode : Node → Except Error α) (left : Nat) :
    Node → Except Error (List α)
  | .array items fault => if left = 0 then malformed else decodeItems decode fault items
  | node => mismatch node "a sequence"

/-! ### Records -/

/-- Whether a field may be left out: never, always, or only where the record is an object. -/
inductive Presence where
  | required
  | optional
  | optionalKey
  deriving DecidableEq, Repr

/-- **A field of a record** that is being filled in. Its value may stand under other names. -/
structure RecordField (σ : Type) where
  name : String
  aliases : List String
  presence : Presence
  filled : σ → Bool
  decode : Node → σ → Except Error σ

/-- **A record** written as a document: its name, its fields in order and what is left open when
nothing is filled in. -/
structure Shape (σ : Type) where
  name : String
  fields : List (RecordField σ)
  blank : σ

/-- A count of elements, in words. -/
def describeElements (n : Nat) : String :=
  intText n ++ (if n = 1 then " element" else " elements")

namespace Shape

variable {σ : Type}

/-- The field that a key names. -/
def field? (shape : Shape σ) (key : String) : Option (RecordField σ) :=
  shape.fields.find? fun f => f.name = key || f.aliases.contains key

/-- The first required field that is not filled in, in the order in which they are declared. -/
def missing? (shape : Shape σ) (s : σ) : Option String :=
  (shape.fields.find? fun f => f.presence = .required && !f.filled s).map RecordField.name

/-- The members of an object, in their order: a known key fills its field once, and the value of an
unknown key is passed over. So the first thing wrong in the text is what is reported. -/
def decodeMembers (shape : Shape σ) : List (Node × Node) → σ → Except Error σ
  | [], s => .ok s
  | (key, value) :: members, s => do
    let name ← orFault key.keyText
    match shape.field? name with
    | some f =>
      if f.filled s then fail (.duplicateField f.name)
      else do
        let s' ← f.decode value s
        decodeMembers shape members s'
    | none => do
      orFault value.skip
      decodeMembers shape members s

/-- The items of an array, one for each field in order. Items beyond the last field are not allowed,
and fields beyond the last item only if they may always be left out. -/
def decodeElements (shape : Shape σ) (fault : Option Fault) :
    List (RecordField σ) → Nat → List Node → σ → Except Error σ
  | [], _, [], s => do
    orFault (checkFault fault)
    pure s
  | [], _, _ :: _, _ => malformed
  | f :: fields, count, [], s => do
    orFault (checkFault fault)
    -- a field that only an object may leave out has to be there in an array
    if f.presence ≠ .optional then
      fail (.wrongLength count
        ("struct " ++ shape.name ++ " with " ++ describeElements shape.fields.length))
    else decodeElements shape fault fields count [] s
  | f :: fields, count, item :: items, s => do
    let s' ← f.decode item s
    decodeElements shape fault fields (count + 1) items s'

/-- **Reading a record**, in either form. -/
def decode (shape : Shape σ) (left : Nat) : Node → Except Error σ
  | .array items fault =>
    if left = 0 then malformed
    else shape.decodeElements fault shape.fields 0 items shape.blank
  | .object members fault =>
    if left = 0 then malformed
    else do
      let s ← shape.decodeMembers members shape.blank
      orFault (checkFault fault)
      -- whether all is there is asked at the end of the object
      match shape.missing? s with
      | some name => fail (.missingField name)
      | none => pure s
  | node => mismatch node ("struct " ++ shape.name)

end Shape

/-! ### Choices -/

/-- The choice that a name stands for. -/
def lookupVariant {α : Type} (known : List (String × α)) (name : String) : Except Error α :=
  match known.lookup name with
  | some a => .ok a
  | none => fail (.unknownVariant name (known.map Prod.fst))

/-- The name of a choice, where a name must stand. -/
def decodeName : Node → Except Error String
  | .text s => .ok s
  | node => mismatch node "variant identifier"

/-- Nothing but `null`. -/
def decodeUnit : Node → Except Error Unit
  | .null => .ok ()
  | node => mismatch node "unit"

/-- **A choice** among names: the name as a text, or as the only key of an object, with `null`. -/
def decodeVariant {α : Type} (known : List (String × α)) (left : Nat) : Node → Except Error α
  | .text s => lookupVariant known s
  -- a text that cannot be read is no name, and neither is what is not there
  | .badText read _ => .error (.fault read)
  | .missing f => .error (.fault f)
  | .object members fault =>
    if left = 0 then malformed
    else match members with
      | [] =>
        match fault with
        | some f => .error (.fault f)
        | none => malformed
      | (key, value) :: others => do
        let name ← decodeName key
        let a ← lookupVariant known name
        decodeUnit value
        -- a second key is refused, whatever it is
        if others.isEmpty then
          orFault (checkFault fault)
          pure a
        else malformed
  | _ => malformed

/-! ### Whole texts -/

/-- How deep arrays and objects may be nested. One more than this is refused, even if it is empty.
-/
def depthLimit : Nat := 127

/-- **A decoder on a whole text.** Nothing but blanks may follow the document. -/
def decodeSource {α : Type} (decode : Nat → Node → Except Error α) (source : String) :
    Except Error α := do
  let document := read source
  let a ← decode depthLimit document.root
  if document.trailing then malformed else pure a

end StagePlay.Json
