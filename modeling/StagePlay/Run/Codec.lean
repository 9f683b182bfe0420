import StagePlay.Json.Decode
import StagePlay.Run.Event
import StagePlay.Run.Uuid

/-!
# Outcomes and events as documents

An outcome is written as its name, and an event as an object that says under `type` which event it
is. Everything beside the type is kept until the type is known, and only then read as the fields of
that event: `Event.decode` first takes a node apart into the type and the rest, and `Event.ofRest`
makes the event of the two.
-/

namespace StagePlay

open Json

/-! ### Names -/

/-- The names of the outcomes. -/
def Outcome.names : List (String × Outcome) :=
  [("completed", .completed), ("stopped", .stopped), ("noStartBlock", .noStartBlock),
   ("ignored", .ignored)]

/-- The name of an outcome. -/
def Outcome.name : Outcome → String
  | .completed => "completed"
  | .stopped => "stopped"
  | .noStartBlock => "noStartBlock"
  | .ignored => "ignored"

/-- Reading an outcome. -/
def Outcome.decode (left : Nat) (node : Node) : Except Error Outcome :=
  decodeVariant names left node

/-- Writing an outcome. -/
def Outcome.encode (o : Outcome) : Value := .text o.name

/-- The names of the orders of turns. -/
def Scheduling.names : List (String × Scheduling) :=
  [("sequential", .sequential), ("concurrent", .concurrent)]

/-- The name of an order of turns. -/
def Scheduling.name : Scheduling → String
  | .sequential => "sequential"
  | .concurrent => "concurrent"

/-- Reading an order of turns. -/
def Scheduling.decode (left : Nat) (node : Node) : Except Error Scheduling :=
  decodeVariant names left node

/-- Writing an order of turns. -/
def Scheduling.encode (s : Scheduling) : Value := .text s.name

namespace Event

/-! ### Kinds -/

/-- The kinds of events. -/
inductive Kind where
  | runStarted
  | noStartBlock
  | unknownOperation
  | runFinished
  deriving DecidableEq, Repr

/-- The names of the kinds. -/
def kinds : List (String × Kind) :=
  [("runStarted", .runStarted), ("noStartBlock", .noStartBlock),
   ("unknownOperation", .unknownOperation), ("runFinished", .runFinished)]

/-! ### Fields that were kept -/

/-- Reading an identifier. -/
def decodeRun (node : Node) : Except Error Uuid :=
  match node with
  | .text s =>
    match Uuid.read s with
    | .ok u => .ok u
    | .error flaw => fail (.badIdentifier flaw.message)
  | _ => mismatch node "a UUID string"

/-- Reading nothing, from a value that was kept. -/
def decodeNothing : Node → Except Error Unit
  | .null => .ok ()
  | .object [] none => .ok ()
  | node => mismatch node "unit"

/-- Reading an outcome, from a value that was kept. -/
def decodeOutcome (node : Node) : Except Error Outcome :=
  match node with
  | .text s => lookupVariant Outcome.names s
  | .object [(key, value)] none => do
    let name ← decodeName key
    let outcome ← lookupVariant Outcome.names name
    decodeNothing value
    pure outcome
  | .object _ _ => fail (.wrongValue .map "map with a single key")
  | _ => mismatch node "string or map"

/-- An event that is being filled in. -/
structure Draft where
  run : Option Uuid := none
  block : Option String := none
  kind : Option String := none
  outcome : Option Outcome := none

/-- The identifier of a run, as a field. -/
def runField : RecordField Draft where
  name := "run_id"
  aliases := []
  presence := .required
  filled := fun d => d.run.isSome
  decode := fun node d => do let u ← decodeRun node; pure { d with run := some u }

/-- The id of a block, as a field. -/
def blockField : RecordField Draft where
  name := "block"
  aliases := []
  presence := .required
  filled := fun d => d.block.isSome
  decode := fun node d => do let s ← decodeText node; pure { d with block := some s }

/-- The kind of an operation, as a field. -/
def kindField : RecordField Draft where
  name := "kind"
  aliases := []
  presence := .required
  filled := fun d => d.kind.isSome
  decode := fun node d => do let s ← decodeText node; pure { d with kind := some s }

/-- The outcome of a run, as a field. -/
def outcomeField : RecordField Draft where
  name := "outcome"
  aliases := []
  presence := .required
  filled := fun d => d.outcome.isSome
  decode := fun node d => do let o ← decodeOutcome node; pure { d with outcome := some o }

/-- How the fields of a kind of event are written. -/
def shape : Kind → Shape Draft
  | .runStarted => ⟨"EngineEvent::RunStarted", [runField], {}⟩
  | .noStartBlock => ⟨"EngineEvent::NoStartBlock", [], {}⟩
  | .unknownOperation => ⟨"EngineEvent::UnknownOperation", [blockField, kindField], {}⟩
  | .runFinished => ⟨"EngineEvent::RunFinished", [runField, outcomeField], {}⟩

/-- The event of a kind with its fields filled in. -/
def Draft.event? (d : Draft) : Kind → Option (Event Uuid)
  | .runStarted => d.run.map .runStarted
  | .noStartBlock => some .noStartBlock
  | .unknownOperation => do
    let block ← d.block
    let kind ← d.kind
    pure (.unknownOperation block kind)
  | .runFinished => do
    let run ← d.run
    let outcome ← d.outcome
    pure (.runFinished run outcome)

/-! ### The rest of an event -/

/-- What stands beside the type: the other members of an object or the other items of an array. -/
inductive Rest where
  | members (ms : List (String × Value))
  | items (vs : List Value)
  deriving Repr

/-- Filling in fields from items, one for each field in order. `count` is the number of fields and
`length` the number of items. -/
def fillFromItems (name : String) (count length : Nat) :
    List (RecordField Draft) → List Value → Draft → Except Error Draft
  | [], [], d => pure d
  | [], _ :: _, _ =>
    fail (.wrongLength length (describeElements count ++ " in sequence"))
  | _ :: _, [], _ =>
    fail (.wrongLength length ("struct variant " ++ name ++ " with " ++ describeElements count))
  | f :: fields, v :: vs, d => do
    let d' ← f.decode (.ofValue v) d
    fillFromItems name count length fields vs d'

/-- Filling in the fields of a kind of event. Members that are no fields of it do not count, but
every item has to be one. -/
def fill (kind : Kind) (rest : Rest) : Except Error Draft :=
  let shape := shape kind
  match rest with
  | .members ms => do
    let d ← shape.decodeMembers (nodesOfMembers ms) shape.blank
    match shape.missing? d with
    | some name => fail (.missingField name)
    | none => pure d
  | .items vs => fillFromItems shape.name shape.fields.length vs.length shape.fields vs shape.blank

/-- The event of a kind and the rest. -/
def ofRest (kind : Kind) (rest : Rest) : Except Error (Event Uuid) := do
  let d ← fill kind rest
  match d.event? kind with
  | some e => pure e
  | none => malformed

/-- The members of an object as the type and the rest, with the type read where it stands. -/
def splitMembers (left : Nat) (fault : Option Fault) :
    Option Kind → List (String × Value) → List (Node × Node) →
    Except Error (Kind × List (String × Value))
  | kind?, kept, [] => do
    orFault (checkFault fault)
    match kind? with
    | some kind => pure (kind, kept.reverse)
    | none => fail (.missingField "type")
  | kind?, kept, (key, value) :: members => do
    let name ← orFault key.keyText
    if name = "type" then
      if kind?.isSome then fail (.duplicateField "type")
      else do
        let tag ← decodeName value
        let kind ← lookupVariant kinds tag
        splitMembers left fault (some kind) kept members
    else do
      let v ← orFault (value.complete left)
      splitMembers left fault kind? ((name, v) :: kept) members

/-- **Reading an event**: an object, or an array that begins with the type. -/
def decode (left : Nat) : Node → Except Error (Event Uuid)
  | .object members fault =>
    if left = 0 then malformed
    else do
      let (kind, ms) ← splitMembers (left - 1) fault none [] members
      ofRest kind (.members ms)
  | .array items fault =>
    if left = 0 then malformed
    else match items with
      | [] => do
        orFault (checkFault fault)
        fail (.missingField "type")
      | tagNode :: others => do
        let tag ← decodeName tagNode
        let kind ← lookupVariant kinds tag
        let vs ← orFault (completeItems (left - 1) others)
        orFault (checkFault fault)
        ofRest kind (.items vs)
  | node => mismatch node "internally tagged enum EngineEvent"

/-- **Writing an event**, with its run written by `run`. -/
def encode {ρ : Type} (run : ρ → Value) : Event ρ → Value
  | .runStarted r => .object [("run_id", run r), ("type", .text "runStarted")]
  | .noStartBlock => .object [("type", .text "noStartBlock")]
  | .unknownOperation block kind =>
    .object [("block", .text block), ("kind", .text kind), ("type", .text "unknownOperation")]
  | .runFinished r outcome =>
    .object [("outcome", outcome.encode), ("run_id", run r), ("type", .text "runFinished")]

end Event

/-- An identifier as a document. -/
def Uuid.encode (u : Uuid) : Value := .text u.write

end StagePlay
