import StagePlay.Number.Numeral

/-!
# Arguments of the command line

The arguments are read from left to right. An option takes its value from after an equals sign, or
from the next argument unless that looks like an option itself. A value is looked at only when the
argument after it is taken up, or when the arguments end; so of two mistakes in a row the second one
may be the one that is reported.

* `Reading.take` — one more argument;
* `CommandLine.parse` — all arguments as a command.

Commands have arguments of their own: reading goes on with those of the command, and whatever is
wrong there comes before what is wrong in front of it.
-/

namespace StagePlay

open Number

/-- **What keeps arguments from being a command.** -/
inductive UsageError where
  /-- There is nothing. -/
  | nothingGiven
  /-- Help was asked for. -/
  | helpWanted
  /-- There is no command. -/
  | missingCommand
  /-- There is no command of that name. -/
  | unknownCommand
  /-- What is needed is not there. -/
  | missingArgument
  /-- There is no such argument. -/
  | unknownArgument
  /-- An argument has no value. -/
  | missingValue
  /-- A value has the wrong form. -/
  | badValue
  /-- An option comes again. -/
  | repeatedOption
  /-- A value where none is taken. -/
  | needlessValue
  deriving DecidableEq, Repr

/-- The name of what is wrong. -/
def UsageError.name : UsageError → String
  | .nothingGiven => "DisplayHelpOnMissingArgumentOrSubcommand"
  | .helpWanted => "DisplayHelp"
  | .missingCommand => "MissingSubcommand"
  | .unknownCommand => "InvalidSubcommand"
  | .missingArgument => "MissingRequiredArgument"
  | .unknownArgument => "UnknownArgument"
  | .missingValue => "InvalidValue"
  | .badValue => "ValueValidation"
  | .repeatedOption => "ArgumentConflict"
  | .needlessValue => "TooManyValues"

/-- **A command.** -/
inductive Command where
  | run (project : String) (concurrent trace : Bool) (frameMillis : Option Nat)
  | config
  deriving DecidableEq, Repr

/-- A command, and the settings file that is named with it. -/
structure CommandLine where
  settingsFile : Option String
  command : Command
  deriving DecidableEq, Repr

namespace CommandLine

/-! ### What is known where -/

/-- Where an argument stands: in front of the command, or among those of a command. -/
inductive Level where
  | root
  | run
  | config
  deriving DecidableEq, Repr

/-- The arguments that have a value. -/
inductive Slot where
  | settingsFile
  | frameMillis
  | project
  deriving DecidableEq, Repr

/-- What an option stands for: a value, a flag, or the wish for help. -/
inductive Meaning where
  | slot (s : Slot)
  | concurrent
  | trace
  | help
  deriving DecidableEq, Repr

/-- The options of a level by name. -/
def options : Level → List (String × Meaning)
  | .run =>
    [("config", .slot .settingsFile), ("frame-ms", .slot .frameMillis), ("concurrent", .concurrent),
     ("trace", .trace), ("help", .help)]
  | _ => [("config", .slot .settingsFile), ("help", .help)]

/-! ### What has been read -/

/-- The values that have been read. -/
structure Values where
  settingsFile : Option String := none
  frameMillis : Option Nat := none
  project : Option String := none
  concurrent : Bool := false
  trace : Bool := false
  deriving DecidableEq, Repr

/-- A value for a slot. A path may not be empty. -/
def Values.fill (v : Values) (slot : Slot) (s : String) : Except UsageError Values :=
  match slot with
  | .settingsFile =>
    if v.settingsFile.isSome then .error .repeatedOption
    else if s = "" then .error .missingValue
    else .ok { v with settingsFile := some s }
  | .project =>
    if v.project.isSome then .error .repeatedOption
    else if s = "" then .error .missingValue
    else .ok { v with project := some s }
  | .frameMillis =>
    if v.frameMillis.isSome then .error .repeatedOption
    else match readNat? wordBound s.toList with
      | some n => .ok { v with frameMillis := some n }
      | none => .error .badValue

/-- **A level that is being read**: its values, the slot whose value has not been looked at with
that value if it has come, and whether all that follows is no option. -/
structure Reading where
  level : Level
  values : Values
  open? : Option (Slot × Option String)
  onlyValues : Bool
  deriving DecidableEq, Repr

/-- A level of which nothing is read. -/
def Reading.start (level : Level) : Reading := ⟨level, {}, none, false⟩

/-- Looking at the value that has not been looked at. -/
def Reading.close (r : Reading) : Except UsageError Reading :=
  match r.open? with
  | none => .ok r
  | some (_, none) => .error .missingValue
  | some (slot, some s) => do
    let values ← r.values.fill slot s
    pure { r with values, open? := none }

/-- Whether a slot waits for its value. -/
def Reading.awaits (r : Reading) : Bool := r.open?.any fun o => o.2.isNone

/-- A flag that is set, if it is not set yet. -/
def Reading.setFlag (r : Reading) (isSet : Bool) (set : Values → Values) :
    Except UsageError Reading :=
  if isSet then .error .repeatedOption else .ok { r with values := set r.values }

/-! ### One argument -/

/-- The name of an option, and the value after its equals sign. -/
def splitOption (cs : List Char) : String × Option String :=
  match cs.dropWhile fun c => c ≠ '=' with
  | [] => (String.ofList cs, none)
  | _ :: value => (String.ofList (cs.takeWhile fun c => c ≠ '='), some (String.ofList value))

/-- An option with a long name. -/
def Reading.takeOption (r : Reading) (cs : List Char) : Except UsageError Reading :=
  let (name, value?) := splitOption cs
  match (options r.level).lookup name, value? with
  | none, _ => .error .unknownArgument
  -- a value after an equals sign is looked at at once, one that follows only later
  | some (.slot slot), some value => do
    let r ← r.close
    let values ← r.values.fill slot value
    pure { r with values }
  | some (.slot slot), none => do
    let r ← r.close
    pure { r with open? := some (slot, none) }
  | some _, some _ => .error .needlessValue
  | some .concurrent, none => do
    let r ← r.close
    r.setFlag r.values.concurrent fun v => { v with concurrent := true }
  | some .trace, none => do
    let r ← r.close
    r.setFlag r.values.trace fun v => { v with trace := true }
  | some .help, none => do
    let _ ← r.close
    .error .helpWanted

/-- Options with short names, of which there is only the one for help. -/
def Reading.takeShort (r : Reading) (c : Char) : Except UsageError Reading :=
  if c = 'h' then do
    let _ ← r.close
    .error .helpWanted
  else .error .unknownArgument

/-- The names of the commands. -/
def commandNames : List String := ["run", "config", "help"]

/-- An argument that is no option: the project, where one is still to come. -/
def Reading.takeValue (r : Reading) (arg : String) : Except UsageError Reading :=
  match r.level with
  | .root =>
    -- a command after two hyphens is no command, and the hyphens are blamed
    .error (if r.onlyValues && commandNames.contains arg then .unknownArgument else .unknownCommand)
  | .config => .error .unknownArgument
  | .run =>
    -- there is one place only, and it is taken
    if r.values.project.isSome || r.open?.any fun o => o.1 = .project then .error .unknownArgument
    else do
      let r ← r.close
      pure { r with open? := some (.project, some arg) }

/-- **One more argument.** -/
def Reading.take (r : Reading) (arg : String) : Except UsageError Reading :=
  if r.onlyValues then r.takeValue arg
  else match arg.toList with
    -- a hyphen alone is a value
    | ['-', '-'] => .ok { r with onlyValues := true }
    | '-' :: '-' :: cs => r.takeOption cs
    | '-' :: c :: _ => r.takeShort c
    | _ =>
      match r.open? with
      | some (slot, none) => .ok { r with open? := some (slot, some arg) }
      | _ => r.takeValue arg

/-! ### Commands -/

/-- The values of a level, once its arguments have ended. -/
def Reading.finish (r : Reading) : Except UsageError Values := do
  let r ← r.close
  pure r.values

/-- The command `run` with its arguments. -/
def readRun (args : List String) : Except UsageError (Option String × Command) := do
  let r ← args.foldlM Reading.take (.start .run)
  let v ← r.finish
  match v.project with
  | none => .error .missingArgument
  | some project => pure (v.settingsFile, .run project v.concurrent v.trace v.frameMillis)

/-- The command `config` with its arguments. -/
def readConfig (args : List String) : Except UsageError (Option String × Command) := do
  let r ← args.foldlM Reading.take (.start .config)
  let v ← r.finish
  pure (v.settingsFile, .config)

/-- The wish for help on a command. -/
def readHelp (args : List String) : UsageError :=
  match args with
  | [] => .helpWanted
  | [name] => if commandNames.contains name then .helpWanted else .unknownCommand
  | _ => .unknownCommand

/-- Whether an argument can be the name of a command here. -/
def Reading.mayBeCommand (r : Reading) : Bool := !r.onlyValues && !r.awaits

/-- The arguments from some point in front of the command on. -/
def parseFrom (r : Reading) : List String → Except UsageError CommandLine
  | [] => do
    let v ← r.finish
    .error (if v.settingsFile.isSome then .missingCommand else .nothingGiven)
  | arg :: args =>
    let withCommand (read : Except UsageError (Option String × Command)) :
        Except UsageError CommandLine := do
      -- the arguments of the command are read to their end first
      let (settingsFile, command) ← read
      let v ← r.finish
      pure ⟨settingsFile.or v.settingsFile, command⟩
    if r.mayBeCommand && arg = "run" then withCommand (readRun args)
    else if r.mayBeCommand && arg = "config" then withCommand (readConfig args)
    else if r.mayBeCommand && arg = "help" then .error (readHelp args)
    else do
      let r ← r.take arg
      parseFrom r args

/-- **All arguments as a command.** A settings file that is named after the command goes before one
that is named in front of it. -/
def parse (args : List String) : Except UsageError CommandLine := parseFrom (.start .root) args

end CommandLine

end StagePlay
