import StagePlay.CommandLine.Arguments
import StagePlay.Environment.File
import StagePlay.Project
import StagePlay.Routine.Builtin
import StagePlay.Session.Host
import StagePlay.Settings.File
import StagePlay.Settings.Load
import StagePlay.Stage.Codec

/-!
# The program

What the program does with its arguments, its files and its environment: it performs a project and
shows the stage at the end, or it shows the settings. The variables of the file `.env` in the
working directory belong to the environment, and the settings come before everything else.

* `Project.load` — the project of a file;
* `Project.perform` — a project performed to its end;
* `CommandLine.execute` — a command, with what the program writes (`Printed`) or why it fails
  (`Failure`).
-/

namespace StagePlay

/-! ### Projects in files -/

/-- What keeps a file from being read. -/
inductive FileError where
  | notFound
  | isDirectory
  | notDirectory
  deriving DecidableEq, Repr

/-- What keeps a file from being read, as the system says it. -/
def FileError.message : FileError → String
  | .notFound => "No such file or directory (os error 2)"
  | .isDirectory => "Is a directory (os error 21)"
  | .notDirectory => "Not a directory (os error 20)"

/-- **What keeps a project from being loaded.** -/
inductive ProjectError where
  | unreadable (path : String) (e : FileError)
  | malformed (e : Json.Error)
  deriving DecidableEq, Repr

/-- The text of the file that a path leads to. -/
def Disk.read (d : Disk) (path : String) : Except FileError String :=
  match d.find path with
  | .file text => .ok text
  | .directory => .error .isDirectory
  | .nothing => .error .notFound
  | .beyondFile => .error .notDirectory

/-- **The project of a file.** -/
def Project.load (d : Disk) (path : String) : Except ProjectError Project :=
  match d.read path with
  | .error e => .error (.unreadable path e)
  | .ok text =>
    match Project.ofJson text with
    | .error e => .error (.malformed e)
    | .ok p => .ok p

/-! ### Messages -/

/-- A cause, in words; a text that is no document has no words of this library's. -/
def ProjectError.cause : ProjectError → String
  | .unreadable _ e => e.message
  | .malformed e => e.message?.getD "not a document"

/-- What a message about a malformed project begins with. -/
def malformedProject : String := "invalid project JSON: "

/-- The message of an error. -/
def ProjectError.message : ProjectError → String
  | .unreadable path e => "failed to read " ++ path ++ ": " ++ e.message
  | .malformed e => malformedProject ++ e.message?.getD "not a document"

/-- The cause of wrong settings, in words. -/
def SettingsError.cause (e : SettingsError) : String := e.message?.getD "not a settings file"

/-- **Why the program fails.** -/
inductive Failure where
  | usage (e : UsageError)
  | settings (e : SettingsError)
  | project (path : String) (e : ProjectError)
  | render (e : RenderError)
  deriving DecidableEq, Repr

/-- What a message about settings begins with. -/
def wrongSettings : String := "configuration error: "

/-- What a message about settings that cannot be written begins with. -/
def unwritable : String := "failed to render configuration: "

/-- **The message of a failure**: what could not be done, and then the error and its cause. -/
def Failure.message : Failure → String
  | .usage e => e.name
  | .settings e => "Failed to load configuration: " ++ wrongSettings ++ e.cause ++ ": " ++ e.cause
  | .project path e =>
    "Failed to load project " ++ path ++ ": " ++ e.message ++ ": " ++ e.cause
  | .render e => unwritable ++ e.message ++ ": " ++ e.message

/-! ### Commands -/

/-- **A project performed to its end** with some settings: its report and the stage. -/
def Project.perform (p : Project) (s : Settings) : Option Result × Stage :=
  let engine := Engine.fresh .builtin s.frameInterval s.scheduling
  let (session, result) := ((Session.ofEngine engine).load p).run
  (result, session.engine.stage.stage)

/-- **What the program writes**: settings as the text of a file, or the report of a run with the
stage at its end. -/
inductive Printed where
  | settings (text : String)
  | performance (report : Report) (stage : Stage)
  deriving Repr

/-- The document that shows a run. -/
def Printed.document (report : Report) (stage : Stage) : Json.Value :=
  .object
    [ ("report", .object
        [("operations", .nat report.operations), ("outcome", report.outcome.encode)]),
      ("stage", stage.encode) ]

/-- Whether what is written comes with a warning that nothing ran. -/
def Printed.isWarning : Printed → Bool
  | .settings _ => false
  | .performance report _ => report.outcome = .noStartBlock

/-- A step whose error is a failure of some kind. -/
def orFail {ε α : Type} (fail : ε → Failure) : Except ε α → Except Failure α
  | .ok a => .ok a
  | .error e => .error (fail e)

namespace CommandLine

/-- The environment with the variables of the file in the working directory. -/
def environment (d : Disk) (e : Environment) : Environment :=
  match d.find ".env" with
  | .file text => e.extendFrom text
  | _ => e

/-- What a command asks of the settings. -/
def wishes (c : CommandLine) : Settings.Wishes :=
  match c.command with
  | .run _ concurrent _ frameMillis =>
    ⟨c.settingsFile, if concurrent then some .concurrent else none, frameMillis⟩
  | .config => ⟨c.settingsFile, none, none⟩

/-- The report of a run whose result may be none. -/
def reportOf : Option Result → Report
  | some (.report r) => r
  | _ => ⟨.stopped, 0⟩

/-- **A command on a disk in an environment.** -/
def execute (c : CommandLine) (d : Disk) (e : Environment) (readers : Readers := .own) :
    Except Failure Printed := do
  -- settings come first, so that what is wrong with them is told first
  let settings ← orFail .settings (Settings.load d (environment d e) c.wishes readers)
  match c.command with
  | .run path _ _ _ => do
    let p ← orFail (.project path) (Project.load d path)
    let (result, stage) := p.perform settings
    pure (.performance (reportOf result) stage)
  | .config => do
    let text ← orFail .render settings.toFile
    pure (.settings text)

/-- **The program** with its arguments. -/
def program (args : List String) (d : Disk) (e : Environment) (readers : Readers := .own) :
    Except Failure Printed := do
  let c ← orFail .usage (parse args)
  c.execute d e readers

end CommandLine

end StagePlay
