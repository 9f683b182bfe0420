import StagePlay.Disk
import StagePlay.Environment.Basic
import StagePlay.Json.Decode
import StagePlay.Settings.Basic
import StagePlay.Text.Lower
import StagePlay.Toml.Document

/-!
# Sources of settings

A source gives values to keys; keys are compared in small letters. A settings file is a source, in
one of six formats, and so are the variables of the environment whose names begin with a certain
word. What a value is good for is decided later: `Given` keeps the value as the source has it, and
where it comes from.

Texts of two of the formats are read here. The other four are left to `Readers` that somebody else
provides: what is said about settings holds whatever these make of a text.

* `FileFormat`, `fileFormats` — the formats, and the extensions that tell them;
* `Readers` — how the texts of all formats are read, and in which order the extensions are tried;
* `Source.ofFile?` — the text of a file as a source;
* `Source.ofEnvironment` — the environment as a source;
* `Source.overlaid` — one source on top of another.
-/

namespace StagePlay

open Number Text

/-- **A value as a source gives it.** Of a table only the keys matter. -/
inductive Loose where
  | nothing
  | bool (b : Bool)
  | int (i : Int)
  | real (x : Float)
  | text (s : String)
  | sequence
  | table (keys : List String)
  deriving DecidableEq, Repr

/-- A value and where it comes from. -/
structure Given where
  value : Loose
  origin : Option String
  deriving DecidableEq, Repr

/-- **A source of settings**: values by key. For one key the last entry counts. -/
structure Source where
  entries : List (String × Given)
  deriving DecidableEq, Repr

/-! ### Formats -/

/-- The formats of settings files. -/
inductive FileFormat where
  | toml
  | json
  | yaml
  | ini
  | ron
  | json5
  deriving DecidableEq, Repr

namespace FileFormat

/-- All formats, in an order of our own. -/
def all : List FileFormat := [toml, json, yaml, ini, ron, json5]

/-- The extensions that files of a format have. -/
def extensions : FileFormat → List String
  | toml => ["toml"]
  | json => ["json"]
  | yaml => ["yaml", "yml"]
  | ini => ["ini"]
  | ron => ["ron"]
  | json5 => ["json5"]

/-- The extensions of some formats, each with its format. -/
def byExtension (formats : List FileFormat) : List (String × FileFormat) :=
  formats.flatMap fun format => format.extensions.map fun ending => (ending, format)

end FileFormat

/-- The formats by the extensions of their files. -/
def fileFormats : List (String × FileFormat) := FileFormat.byExtension FileFormat.all

/-- **A reader of a format**: the keys of a text with their values, as far as settings can use them.
There is none for a text that is not well-formed, or that has no keys at all. -/
abbrev FileReader : Type := String → Option (List (String × Loose))

/-- Keys in small letters, each once. -/
def lowerKeys (keys : List String) : List String :=
  (keys.map lower).foldr (fun k ks => if ks.contains k then ks else k :: ks) []

namespace Loose

/-- A value of a settings file. -/
def ofToml : Toml.Value → Loose
  | .text s => .text s
  | .int i => .int i
  | .real x => .real x
  | .bool b => .bool b
  | .moment s => .text s
  | .array _ => .sequence
  | .table members => .table (lowerKeys (members.map Prod.fst))

/-- A value of a document. A whole number that takes more than 64 bits with a sign counts as a
float. -/
def ofJson : Json.Value → Loose
  | .null => .nothing
  | .bool b => .bool b
  -- the bound is that of numbers with a sign
  | .number (.int i) => if i < signedBound then .int i else .real (Float.ofInt i)
  | .number (.real x) => .real x
  | .text s => .text s
  | .array _ => .sequence
  | .object members => .table (lowerKeys (members.map Prod.fst))

/-- The value of a variable: a truth value, a whole number, a float, or a text, in this order. So a
filter that looks like a number is first taken for one. -/
def ofVariable (s : String) : Loose :=
  if lower s = "true" then .bool true
  else if lower s = "false" then .bool false
  else match readInt? s.toList with
    | some i => .int i
    | none =>
      match readFloat? s.toList with
      | some x => .real x
      | none => .text s

end Loose

/-! ### Readers -/

/-- The reader of TOML texts. -/
def readToml : FileReader := fun text =>
  (Toml.read? text).map fun members => members.map fun m => (m.1, .ofToml m.2)

/-- The reader of JSON texts. Only an object has keys, and nothing may follow it. -/
def readJson : FileReader := fun text =>
  let document := Json.read text
  match document.root.complete Json.depthLimit, document.trailing with
  | .ok (.object members), false => some (members.map fun m => (m.1, .ofJson m.2))
  | _, _ => none

/-- **The readers of settings files.** TOML and JSON have readers of this library, and the other
formats those that stand here. A name without an extension is tried with the extensions of one format
after the other, in an order that nobody has promised: here it is any order of all formats. -/
structure Readers where
  order : List FileFormat
  order_perm : order.Perm FileFormat.all
  yaml : FileReader
  ini : FileReader
  ron : FileReader
  json5 : FileReader

namespace Readers

/-- The readers of this library alone, for which every text in another format is malformed. -/
def own : Readers where
  order := FileFormat.all
  order_perm := .refl _
  yaml _ := none
  ini _ := none
  ron _ := none
  json5 _ := none

/-- The reader of a format. -/
def reader (readers : Readers) : FileFormat → FileReader
  | .toml => readToml
  | .json => readJson
  | .yaml => readers.yaml
  | .ini => readers.ini
  | .ron => readers.ron
  | .json5 => readers.json5

/-- The extensions in the order in which they are tried. -/
def formats (readers : Readers) : List (String × FileFormat) :=
  FileFormat.byExtension readers.order

end Readers

/-! ### Sources -/

namespace Source

/-- The source that says nothing. -/
def empty : Source := ⟨[]⟩

/-- The value of a key. -/
def get? (s : Source) (key : String) : Option Given := s.entries.reverse.lookup key

/-- **One source on top of another**, key by key. -/
def overlaid (below above : Source) : Source := ⟨below.entries ++ above.entries⟩

/-- A value that comes from a file. Tables do not remember where they come from. -/
def ofEntry (origin : String) (key : String) (value : Loose) : String × Given :=
  (lower key, ⟨value, match value with
    | .table _ => none
    | _ => some origin⟩)

/-- **The text of a file as a source**, by the reader of its format. A mark of the byte order at its
beginning does not count. -/
def ofFile? (readers : Readers) (format : FileFormat) (origin : String) (text : String) :
    Option Source :=
  -- the mark stands once at most
  let text := match text.toList with
    | '\ufeff' :: cs => String.ofList cs
    | _ => text
  (readers.reader format text).map fun entries => ⟨entries.map fun e => ofEntry origin e.1 e.2⟩

/-- What the names of variables begin with, in small letters. -/
def variableMark : String := "blockstage_"

/-- **The environment as a source.** The key is what follows the mark in the name of a variable, in
small letters; variables without the mark do not count. -/
def ofEnvironment (e : Environment) : Source :=
  ⟨e.entries.filterMap fun (name, value) =>
    let cs := (lower name).toList
    if variableMark.toList.isPrefixOf cs then
      some (String.ofList (cs.drop variableMark.toList.length),
        ⟨.ofVariable value, some "the environment"⟩)
    else none⟩

end Source

end StagePlay
