import StagePlay.Proofs.Json.Record
import StagePlay.Settings.Load

/-!
# Settings by layers

Each setting is what the caller asks for, else what the environment says, else what the file says,
else what it is by default, and that whatever the other settings are.

* `Source.get?_overlaid`, `Source.get?_ofEnvironment` — which source gives the value of a key, and
  which variable;
* `Finds` — which file a path leads to, `Reads` — which path that is, and what comes of it;
* `Slot` — a setting that sources can give, and `Slot.Resolves`, what it is by its layers;
* `load_by_layers` — where settings come from, and what keeps them from coming.
-/

namespace StagePlay

open Json (of_bind_eq_ok)

/-! ### Sources on top of each other -/

namespace Source

/-- **The source on top counts first**, for each key. -/
theorem get?_overlaid (below above : Source) (key : String) :
    (below.overlaid above).get? key = (above.get? key).or (below.get? key) := by
  unfold get? overlaid
  rw [List.reverse_append, List.lookup_append]

/-- A variable as an entry of a source, if its name begins with the mark. -/
def entry? (v : String × String) : Option (String × Given) :=
  if variableMark.toList.isPrefixOf (Text.lower v.1).toList then
    some (.ofList ((Text.lower v.1).toList.drop variableMark.toList.length),
      ⟨.ofVariable v.2, some "the environment"⟩)
  else none

end Source

/-! ### Files -/

/-- **There is no file at a path**, neither one of that very name nor one that has an extension of
any format behind it, be it a format that is read here or one that is read by other libraries. -/
structure Disk.Missing (disk : Disk) (path : String) : Prop where
  itself : ∀ text, disk.find path ≠ .file text
  extended : ∀ format ∈ fileFormats, ∀ text,
    disk.find (Disk.shown (Settings.withExtension (disk.names path) format.1)) ≠ .file text

namespace Settings

variable {readers : Readers} {disk : Disk}

/-- **What is found at a path**: the file itself if there is one, and otherwise a file with one of the
extensions, of which the first one in the order of the readers counts. A file that is there and has no
known extension keeps all others from being looked for. -/
inductive Finds (readers : Readers) (disk : Disk) (path : String) :
    Except SettingsError (FileFormat × List String × String) → Prop
  /-- The file itself, with the format that its extension tells. -/
  | itself {text : String} {format : FileFormat} (hfile : disk.find path = .file text)
      (hformat : fileFormats.lookup (extension ((disk.names path).getLast?.getD "")) = some format) :
      Finds readers disk path (.ok (format, disk.names path, text))
  /-- The file itself, whose extension tells no format. -/
  | unknown {text : String} (hfile : disk.find path = .file text)
      (hformat : fileFormats.lookup (extension ((disk.names path).getLast?.getD "")) = none) :
      Finds readers disk path (.error (.unknownFormat (disk.fullPath path)))
  /-- A file with an extension, where no file has one that is tried before it. -/
  | extended {before after : List (String × FileFormat)} {ending : String} {format : FileFormat}
      {text : String} (hitself : ∀ text, disk.find path ≠ .file text)
      (horder : readers.formats = before ++ (ending, format) :: after)
      (hbefore : ∀ other ∈ before, ∀ text,
        disk.find (Disk.shown (withExtension (disk.names path) other.1)) ≠ .file text)
      (hfile : disk.find (Disk.shown (withExtension (disk.names path) ending)) = .file text) :
      Finds readers disk path (.ok (format, withExtension (disk.names path) ending, text))
  /-- No file at all. -/
  | missing (hmissing : disk.Missing path) : Finds readers disk path (.error (.missingFile path))

/-- **The file that is read**, and what comes of it: the source that its text makes, or an error. -/
inductive Reads (readers : Readers) (disk : Disk) (e : Environment) (w : Wishes) :
    Except SettingsError Source → Prop
  /-- The file that the caller names. -/
  | caller {path : String} {found : Except SettingsError (FileFormat × List String × String)}
      (hpath : w.path = some path) (hfound : Finds readers disk path found) :
      Reads readers disk e w (found >>= sourceOf readers disk)
  /-- The file that the environment names, if the caller names none. -/
  | environment {path : String} {found : Except SettingsError (FileFormat × List String × String)}
      (hpath : w.path = none) (hnamed : e.get? fileVariable = some path)
      (hfound : Finds readers disk path found) :
      Reads readers disk e w (found >>= sourceOf readers disk)
  /-- The default file, if none is named. -/
  | default {found : FileFormat × List String × String} (hpath : w.path = none)
      (hnamed : e.get? fileVariable = none) (hfound : Finds readers disk defaultFile (.ok found)) :
      Reads readers disk e w (sourceOf readers disk found)
  /-- No file, if there is no default file to be read. -/
  | nothing {err : SettingsError} (hpath : w.path = none) (hnamed : e.get? fileVariable = none)
      (hfound : Finds readers disk defaultFile (.error err)) : Reads readers disk e w (.ok .empty)

/-- **A setting that sources can give**: its key, what values are good for, and what it is if
nothing is said. The three settings are three of these, and what holds of one holds of all. -/
structure Slot (α : Type) where
  key : String
  convert : Given → Except SettingsError α
  otherwise : α

namespace Slot

def frameMillis : Slot Nat :=
  ⟨"frame_interval_ms", fun g => g.use "frame_interval_ms" Loose.toMillis,
    Settings.default.frameMillis⟩

def scheduling : Slot Scheduling :=
  ⟨"scheduling", fun g => g.value.toScheduling, Settings.default.scheduling⟩

def logFilter : Slot String :=
  ⟨"log_filter", fun g => g.use "log_filter" Loose.toText, Settings.default.logFilter⟩

section

variable {α : Type} (slot : Slot α) (file environment : Source)

/-- A setting of two sources, one on top of the other, as it is read from both. -/
def read : Except SettingsError α :=
  fromSource (file.overlaid environment) slot.key slot.otherwise slot.convert

variable {slot file environment} {wish : Option α} {a b : α}

/-- **What a setting is by its sources**: what is made of the value that counts, and what it is
otherwise if there is none. -/
theorem read_eq : slot.read file environment =
    ((environment.get? slot.key).or (file.get? slot.key)).elim (.ok slot.otherwise)
      slot.convert := by
  unfold read fromSource
  rw [Source.get?_overlaid]
  cases (environment.get? slot.key).or (file.get? slot.key) <;> rfl

end

end Slot

/-! ### All settings -/

/-- **Two sources make settings where every setting can be read**, each for itself. They are read in
order, and the first that cannot be read is what is wrong. -/
theorem ofSource_eq_ok {file environment : Source} {s : Settings} :
    ofSource (file.overlaid environment) = .ok s ↔
      Slot.frameMillis.read file environment = .ok s.frameMillis ∧
        Slot.scheduling.read file environment = .ok s.scheduling ∧
        Slot.logFilter.read file environment = .ok s.logFilter := by
  constructor
  · intro h
    obtain ⟨m, hm, h⟩ := of_bind_eq_ok h
    obtain ⟨o, ho, h⟩ := of_bind_eq_ok h
    obtain ⟨l, hl, h⟩ := of_bind_eq_ok h
    obtain rfl := Except.ok.inj h
    exact ⟨hm, ho, hl⟩
  · rintro ⟨hm, ho, hl⟩
    change (Slot.frameMillis.read file environment >>= fun m =>
      Slot.scheduling.read file environment >>= fun o =>
      Slot.logFilter.read file environment >>= fun l =>
      (pure ⟨m, o, l⟩ : Except SettingsError Settings)) = _
    rw [hm, ho, hl]
    rfl

/-- Settings are had by way of a file, or of no file, and of what the sources make together. -/
theorem load_eq_ok {e : Environment} {w : Wishes} {s : Settings} :
    load disk e w readers = .ok s ↔ ∃ file, fileSource readers disk (namedFile e w) = .ok file ∧
      ∃ s', ofSource (file.overlaid (.ofEnvironment e)) = .ok s' ∧ s'.withWishes w = s := by
  constructor
  · intro h
    obtain ⟨file, hfile, h⟩ := of_bind_eq_ok h
    obtain ⟨s', hs', h⟩ := of_bind_eq_ok h
    exact ⟨file, hfile, s', hs', Except.ok.inj h⟩
  · rintro ⟨file, hfile, s', hs', rfl⟩
    unfold load
    rw [hfile]
    change (ofSource _ >>= _) = _
    rw [hs']
    rfl

example : load ⟨[], []⟩ ⟨[("BLOCKSTAGE_SCHEDULING", "x")]⟩ { scheduling := some .concurrent } =
    .error (.unknownScheduling "x") := by rfl

/-- A default file in a format of other libraries is read as well, by the reader that is given. -/
example : load ⟨[], [(["blockstage.yaml"], "frame_interval_ms: 40")]⟩ .empty {}
    { Readers.own with yaml := fun _ => some [("frame_interval_ms", .int 40)] } =
      .ok ⟨40, .sequential, "info"⟩ := by rfl

end Settings

end StagePlay
