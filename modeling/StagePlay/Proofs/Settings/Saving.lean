import StagePlay.Proofs.Settings.Layers
import StagePlay.Proofs.Toml.Document

/-!
# Settings that are saved in a file

Settings that are written as a file are had again from that file, as long as neither the environment
nor the caller asks for something else. The log filter may be any text. Only a time from frame to
frame that takes more than 64 bits with a sign cannot be written.

* `Environment.Silent` — an environment that says nothing of settings;
* `Settings.source` — a file of settings as a source, and `ofFile?_lines`, that it is read so;
* `Settings.ofSource_source` — such a source makes the settings again;
* `Settings.load_toFile`: the result, and `Settings.toFile_outOfRange`, what is beyond it.
-/

namespace StagePlay

open Number Text

/-- **An environment that says nothing of settings**: no name begins with the mark, in small letters
or in large ones. -/
def Environment.Silent (e : Environment) : Prop :=
  ∀ v ∈ e.entries, Source.variableMark.toList.isPrefixOf (lower v.1).toList = false

/-- It makes no source. -/
theorem Environment.Silent.ofEnvironment_eq {e : Environment} (h : e.Silent) :
    Source.ofEnvironment e = .empty := by
  have hentries : e.entries.filterMap Source.entry? = [] := by
    refine List.filterMap_eq_nil_iff.mpr fun v hv => ?_
    unfold Source.entry?
    rw [h v hv, if_neg Bool.false_ne_true]
  exact congrArg Source.mk hentries

/-- It names no file, either. -/
theorem Environment.Silent.get?_eq_none {e : Environment} (h : e.Silent) :
    e.get? Settings.fileVariable = none := by
  refine List.lookup_eq_none_iff.mpr fun v hv => ?_
  have hmark :
      Source.variableMark.toList.isPrefixOf (lower Settings.fileVariable).toList = true := by
    decide +kernel
  rw [bne_iff_ne]
  intro hname
  have hsilent := h v hv
  rw [← hname, hmark] at hsilent
  cases hsilent

namespace Settings

variable {s : Settings}

/-- **The lines of settings** that can be written, each with the proof that it is read as the value
it stands for. -/
def lines (s : Settings) (hmillis : s.frameMillis < signedBound) : List Toml.Setting :=
  [⟨"frame_interval_ms", digitChars s.frameMillis, .int s.frameMillis, by decide,
      Toml.written_digitChars hmillis⟩,
    ⟨"scheduling", Toml.writeText s.scheduling.name, .text s.scheduling.name, by decide,
      Toml.written_writeText _⟩,
    ⟨"log_filter", Toml.writeText s.logFilter, .text s.logFilter, by decide,
      Toml.written_writeText _⟩]

/-- What settings are written as is these lines and nothing else. -/
theorem toFile_eq (hmillis : s.frameMillis < signedBound) :
    s.toFile = .ok (String.ofList ((s.lines hmillis).flatMap Toml.Setting.line)) := by
  unfold toFile
  rw [if_pos hmillis]
  simp [lines, Toml.Setting.line]

/-- Settings as a source, each from the same file. -/
def source (s : Settings) (origin : String) : Source :=
  ⟨[("frame_interval_ms", ⟨.int s.frameMillis, some origin⟩),
    ("scheduling", ⟨.text s.scheduling.name, some origin⟩),
    ("log_filter", ⟨.text s.logFilter, some origin⟩)]⟩

/-- **What is written for settings** is read as a source of them, by whatever readers: the format is
the one that is read here. Keys are turned into small letters when they are read, and they are small
already. -/
theorem ofFile?_lines (readers : Readers) (hmillis : s.frameMillis < signedBound)
    (origin : String) :
    Source.ofFile? readers .toml origin (String.ofList ((s.lines hmillis).flatMap Toml.Setting.line)) =
      some (s.source origin) := by
  have hkeys : (s.lines hmillis).map Toml.Setting.key =
      ["frame_interval_ms", "scheduling", "log_filter"] := rfl
  have hdifferent : ((s.lines hmillis).map Toml.Setting.key).Nodup := by
    rw [hkeys]
    decide
  have hread := Toml.read?_lines hdifferent
  -- the file begins with a key, and not with a mark of the byte order
  obtain ⟨c, cs, hcs, hc⟩ : ∃ c cs, (s.lines hmillis).flatMap Toml.Setting.line = c :: cs ∧
      Toml.isKeyChar c = true := Toml.Setting.exists_line_eq_cons _ _
  have hmark := Toml.ne_of_kind hc (by decide : Toml.isKeyChar '\ufeff' = false)
  rw [hcs] at hread ⊢
  unfold Source.ofFile?
  rw [String.toList_ofList]
  split
  · next heq => exact absurd (List.cons.inj heq).1 hmark
  · have hlower : lower "frame_interval_ms" = "frame_interval_ms" ∧
        lower "scheduling" = "scheduling" ∧ lower "log_filter" = "log_filter" := by
      decide +kernel
    dsimp only
    unfold Readers.reader readToml
    dsimp only
    rw [hread]
    simp only [lines, source, Source.ofEntry, Loose.ofToml, hlower, Option.map_some, List.map_cons,
      List.map_nil]

/-- A setting that the file gives, where nothing is on top of it, is what is made of the given
value. -/
theorem Slot.read_file {α : Type} {slot : Slot α} {file : Source} {g : Given}
    (h : file.get? slot.key = some g) : slot.read file .empty = slot.convert g := by
  have hempty : Source.empty.get? slot.key = none := rfl
  rw [Slot.read_eq, hempty, Option.none_or, h]
  rfl

/-- **A source of settings makes these settings.** A time is given as a whole number, an order of
turns by its name, and a filter by its text. -/
theorem ofSource_source (s : Settings) (origin : String) :
    ofSource ((s.source origin).overlaid .empty) = .ok s := by
  have hmillis : (s.source origin).get? Slot.frameMillis.key =
      some ⟨.int s.frameMillis, some origin⟩ := rfl
  have hscheduling : (s.source origin).get? Slot.scheduling.key =
      some ⟨.text s.scheduling.name, some origin⟩ := rfl
  have hfilter : (s.source origin).get? Slot.logFilter.key =
      some ⟨.text s.logFilter, some origin⟩ := rfl
  refine ofSource_eq_ok.mpr ⟨?_, ?_, ?_⟩
  · rw [Slot.read_file hmillis]
    rfl
  · rw [Slot.read_file hscheduling]
    -- each order of turns is found by its name
    cases s.scheduling <;> rfl
  · rw [Slot.read_file hfilter]
    rfl

/-- **The file that is found** is the source, whether it was named or is the default one. To be
named makes a difference only where nothing is found. -/
theorem fileSource_of_found {readers : Readers} {disk : Disk} {named : Option String}
    {found : FileFormat × List String × String}
    (h : findFile readers disk (named.getD defaultFile) = .ok found) :
    fileSource readers disk named = sourceOf readers disk found := by
  unfold fileSource
  cases named with
  | some path =>
    change (findFile readers disk path >>= _) = _
    rw [show findFile readers disk path = .ok found from h]
    rfl
  | none =>
    dsimp only
    rw [show findFile readers disk defaultFile = .ok found from h]

/-- **Settings are had again from the file that they are written as**, if nothing else is asked for,
and they can be written if 64 bits with a sign hold the time from frame to frame. The readers of other
formats have no part in it, as the file that is found is one of the format that settings are written
in. -/
theorem load_toFile (s : Settings) :
    (s.frameMillis < signedBound → ∃ text, s.toFile = .ok text ∧
      ∀ (readers : Readers) (disk : Disk) (e : Environment) (w : Wishes) (place : List String),
        findFile readers disk (w.path.getD defaultFile) = .ok (.toml, place, text) → e.Silent →
        w.scheduling = none → w.frameMillis = none → load disk e w readers = .ok s) ∧
      (signedBound ≤ s.frameMillis → s.toFile = .error .outOfRange) := by
  refine ⟨fun hmillis => ⟨_, toFile_eq hmillis, ?_⟩, fun hmillis => ?_⟩
  · intro readers disk e w place hfound hsilent hscheduling hwish
    -- a silent environment names no file, so the file is the one that the caller names, or the
    -- default one
    have hnamed : namedFile e w = w.path := by
      unfold namedFile
      rw [hsilent.get?_eq_none, Option.or_none]
    have hfile : fileSource readers disk (namedFile e w) = .ok (s.source (disk.relative place)) := by
      rw [hnamed, fileSource_of_found hfound]
      unfold sourceOf
      rw [ofFile?_lines readers hmillis]
    -- the file is the one layer that says anything
    refine load_eq_ok.mpr ⟨_, hfile, s, ?_, ?_⟩
    · rw [hsilent.ofEnvironment_eq, ofSource_source]
    · unfold withWishes
      rw [hscheduling, hwish]
      rfl
  · unfold toFile
    rw [if_neg (Nat.not_lt.mpr hmillis)]

/-- **Settings that were had and cannot be written**: the format has no number for a time of 2 ^ 63
milliseconds or more, while the caller may ask for one. -/
theorem toFile_outOfRange : load ⟨[], []⟩ .empty { frameMillis := some 0x8000000000000000 } =
      .ok ⟨0x8000000000000000, .sequential, "info"⟩ ∧
    toFile ⟨0x8000000000000000, .sequential, "info"⟩ = .error .outOfRange :=
  ⟨rfl, rfl⟩

/-- A disk with the default file alone. -/
def diskWith (text : String) : Disk := ⟨[], [(["blockstage.toml"], text)]⟩

/-- It is found by its extension, which is the first one that is tried. -/
theorem findFile_diskWith (text : String) :
    findFile .own (diskWith text) defaultFile = .ok (.toml, ["blockstage.toml"], text) := by
  have hnames : (diskWith text).names defaultFile = ["blockstage"] := rfl
  have hitself : (diskWith text).find defaultFile = .nothing := rfl
  have hextended : findWithExtension? (diskWith text) ["blockstage"] Readers.own.formats =
      some (.toml, ["blockstage.toml"], text) := rfl
  unfold findFile
  rw [hitself, hnames, hextended]

/-- The longest time that can be written, and a filter with quotes of both kinds on two lines. -/
def sample : Settings :=
  ⟨0x7fffffffffffffff, .concurrent, "info,[\x7bname=\"it\'s\\\"\x7d]\n=off"⟩

/-- They are had again from the default file. -/
theorem sample_load_toFile : ∃ text, sample.toFile = .ok text ∧
    load (diskWith text) .empty {} = .ok sample := by
  obtain ⟨text, htext, hload⟩ := (load_toFile sample).1 (by decide)
  exact ⟨text, htext,
    hload .own (diskWith text) .empty {} _ (findFile_diskWith text) (List.forall_mem_nil _) rfl rfl⟩

end Settings

end StagePlay
