import StagePlay.Settings.Source

/-!
# Where settings come from

Settings are put together from what is true by default, a settings file, the environment, and what
the caller asks for; later ones go before earlier ones, each setting for itself. The file is the one
that the caller names, else the one that the environment names, else the default file in the working
directory. A file that is named has to be there; the default file need not.

Whatever is wrong in the file or the environment is an error, even where the caller asks for
something else.

* `SettingsError` — what can be wrong, and `SettingsError.message?`, its text;
* `Settings.ofSource` — the settings that a source makes;
* `Settings.load` — the settings of a caller on a disk in an environment.
-/

namespace StagePlay

open Number Text

/-! ### What can be wrong -/

/-- **What is wrong** with the settings. -/
inductive SettingsError where
  /-- A value that cannot be used for its key. -/
  | unsuitable (found : Loose) (expected : String) (key : String) (origin : Option String)
  /-- A word that is no order of turns. -/
  | unknownScheduling (word : String)
  /-- Something else than a word where an order of turns should be. -/
  | noScheduling
  /-- A file that is not there. -/
  | missingFile (path : String)
  /-- A file whose name tells no format. -/
  | unknownFormat (path : String)
  /-- A file that is not well-formed. -/
  | malformedFile
  deriving DecidableEq, Repr

/-- A value, in words. -/
def Loose.describe : Loose → String
  | .nothing => "unit value"
  | .bool b => "boolean `" ++ (if b then "true" else "false") ++ "`"
  | .int i => "64-bit integer `" ++ Json.intText i ++ "`"
  | .real x => "floating point `" ++ Layout.plain.write x ++ "`"
  | .text s => "string " ++ quote s
  | .sequence => "sequence"
  | .table _ => "map"

/-- The message of an error. A file that is not well-formed has no message of this library's. -/
def SettingsError.message? : SettingsError → Option String
  | .unsuitable found expected key origin =>
    some ("invalid type: " ++ found.describe ++ ", expected " ++ expected ++ " for key `" ++ key
      ++ "`" ++ origin.elim "" fun o => " in " ++ o)
  | .unknownScheduling word =>
    some ("enum Scheduling does not have variant constructor " ++ word)
  | .noScheduling =>
    some ("value of enum Scheduling should be represented by either string or table with exactly "
      ++ "one key")
  | .missingFile path => some ("configuration file \"" ++ path ++ "\" not found")
  | .unknownFormat path =>
    some ("configuration file \"" ++ path ++ "\" is not of a registered file format")
  | .malformedFile => none

/-! ### Values -/

namespace Loose

/-- The most milliseconds that can be set. -/
def mostMillis : Nat := mostWord

/-- A value as a number of milliseconds; otherwise, what was expected. Floats are rounded, truth
values count as numbers, and a text may be a word for a truth value. -/
def toMillis : Loose → Except String Nat
  | .int i => if 0 ≤ i then .ok i.toNat else .error "an unsigned 64 bit or less integer"
  | .real x => .ok (nearestNat mostMillis x)
  | .bool b => .ok (if b then 1 else 0)
  | .text s =>
    if ["true", "on", "yes"].contains (lower s) then .ok 1
    else if ["false", "off", "no"].contains (lower s) then .ok 0
    else match readNat? wordBound s.toList with
      | some n => .ok n
      | none => .error "an integer"
  | _ => .error "an integer"

/-- A value as a text; otherwise, what was expected. -/
def toText : Loose → Except String String
  | .text s => .ok s
  | .bool b => .ok (if b then "true" else "false")
  | .int i => .ok (Json.intText i)
  | .real x => .ok (Layout.plain.write x)
  | _ => .error "a string"

/-- The order of turns that a word names, in any case. -/
def schedulingNamed (word : String) : Except SettingsError Scheduling :=
  match Scheduling.names.lookup (lower word) with
  | some s => .ok s
  | none => .error (.unknownScheduling (lower word))

/-- A value as an order of turns: a word, or a table with a word as its only key, whatever its value
is. -/
def toScheduling : Loose → Except SettingsError Scheduling
  | .text s => schedulingNamed s
  | .table [key] => schedulingNamed key
  | _ => .error .noScheduling

end Loose

/-- A value for a key, if it can be used. -/
def Given.use {α : Type} (g : Given) (key : String) (convert : Loose → Except String α) :
    Except SettingsError α :=
  match convert g.value with
  | .ok a => .ok a
  | .error expected => .error (.unsuitable g.value expected key g.origin)

/-! ### Settings -/

namespace Settings

/-- A setting of a source, or what it is otherwise. -/
def fromSource {α : Type} (s : Source) (key : String) (otherwise : α)
    (convert : Given → Except SettingsError α) : Except SettingsError α :=
  match s.get? key with
  | none => .ok otherwise
  | some g => convert g

/-- **The settings that a source makes.** -/
def ofSource (s : Source) : Except SettingsError Settings := do
  -- in this order, so the first that is wrong is the one that is reported
  let frameMillis ← fromSource s "frame_interval_ms" default.frameMillis fun g =>
    g.use "frame_interval_ms" Loose.toMillis
  let scheduling ← fromSource s "scheduling" default.scheduling fun g => g.value.toScheduling
  let logFilter ← fromSource s "log_filter" default.logFilter fun g =>
    g.use "log_filter" Loose.toText
  pure ⟨frameMillis, scheduling, logFilter⟩

/-- The name of the default file, without an extension. -/
def defaultFile : String := "blockstage"

/-- The name of the variable that names a file. -/
def fileVariable : String := "BLOCKSTAGE_CONFIG_PATH"

/-- A place with an extension put behind its last name. -/
def withExtension (place : List String) (ending : String) : List String :=
  match place.getLast? with
  | some name => place.dropLast ++ [name ++ "." ++ ending]
  | none => []

/-- The first file of the formats that stands at a place, once their extensions are put behind it.
-/
def findWithExtension? (disk : Disk) (place : List String) :
    List (String × FileFormat) → Option (FileFormat × List String × String)
  | [] => none
  | (ending, format) :: formats =>
    match disk.find (Disk.shown (withExtension place ending)) with
    | .file text => some (format, withExtension place ending, text)
    | _ => findWithExtension? disk place formats

/-- **The settings file of a path**, with its format and its place: the file itself, or the one that
a known extension leads to. Of several such files the one whose format is tried first counts. -/
def findFile (readers : Readers) (disk : Disk) (path : String) :
    Except SettingsError (FileFormat × List String × String) :=
  match disk.find path with
  | .file text =>
    -- a file that is there decides, even if its format is not known
    match fileFormats.lookup (extension ((disk.names path).getLast?.getD "")) with
    | some format => .ok (format, disk.names path, text)
    | none => .error (.unknownFormat (disk.fullPath path))
  | _ =>
    match findWithExtension? disk (disk.names path) readers.formats with
    | some found => .ok found
    | none => .error (.missingFile path)

/-- The source of a file that was found. -/
def sourceOf (readers : Readers) (disk : Disk) (found : FileFormat × List String × String) :
    Except SettingsError Source :=
  match Source.ofFile? readers found.1 (disk.relative found.2.1) found.2.2 with
  | some s => .ok s
  | none => .error .malformedFile

/-- **The settings file as a source.** A file that is named has to be there. -/
def fileSource (readers : Readers) (disk : Disk) (named : Option String) :
    Except SettingsError Source :=
  match named with
  | some path => do
    let found ← findFile readers disk path
    sourceOf readers disk found
  | none =>
    match findFile readers disk defaultFile with
    | .ok found => sourceOf readers disk found
    -- nobody named this file, so it may be missing, or be something else
    | .error _ => .ok .empty

/-- What a caller asks for. -/
structure Wishes where
  path : Option String := none
  scheduling : Option Scheduling := none
  frameMillis : Option Nat := none
  deriving DecidableEq, Repr

/-- Settings with what a caller asks for in place of what it is otherwise. -/
def withWishes (s : Settings) (w : Wishes) : Settings :=
  { s with
    scheduling := w.scheduling.getD s.scheduling
    frameMillis := w.frameMillis.getD s.frameMillis }

/-- The file that is named, by the caller or else by the environment. -/
def namedFile (e : Environment) (w : Wishes) : Option String := w.path.or (e.get? fileVariable)

/-- **The settings of a caller**, on a disk in an environment. Where nobody provides readers for the
formats of other libraries, files in these formats are malformed. -/
def load (disk : Disk) (e : Environment) (w : Wishes) (readers : Readers := .own) :
    Except SettingsError Settings := do
  let file ← fileSource readers disk (namedFile e w)
  let s ← ofSource (file.overlaid (.ofEnvironment e))
  -- wishes come last, when nothing can go wrong any more
  pure (s.withWishes w)

end Settings

end StagePlay
