import StagePlay.CommandLine.Basic

/-!
# The executable

The outer layer of the program: it reads the files that a command can lead to and the variables that
count, hands them to `CommandLine.program`, and writes what comes back.
-/

namespace StagePlay

/-- The files that a command can lead to: that of the environment, the default settings, and
whatever is named, also with the known extensions. -/
def candidates (args : List String) (fromVariable : Option String) : List String :=
  let named := args ++ args.map (fun a => String.ofList ((a.toList.dropWhile (· ≠ '=')).drop 1))
    ++ fromVariable.toList ++ [Settings.defaultFile]
  [".env"] ++ named ++ named.flatMap fun name => fileFormats.map fun f => name ++ "." ++ f.1

/-- The working directory and those of the files that are there. -/
def readDisk (paths : List String) : IO Disk := do
  let here ← IO.currentDir
  let start : Disk := ⟨(pathSteps here.toString).filter (· ≠ "."), []⟩
  let mut files := []
  for path in paths do
    try
      let text ← IO.FS.readFile path
      files := (start.names path, text) :: files
    catch _ => pure ()
  pure { start with files }

/-- The variables that count. -/
def readEnvironment : IO Environment := do
  let mut entries := []
  for name in [Settings.fileVariable, "BLOCKSTAGE_FRAME_INTERVAL_MS", "BLOCKSTAGE_SCHEDULING",
      "BLOCKSTAGE_LOG_FILTER"] do
    match ← IO.getEnv name with
    | some value => entries := entries ++ [(name, value)]
    | none => pure ()
  pure ⟨entries⟩

end StagePlay

open StagePlay

/-- The program. -/
def main (args : List String) : IO UInt32 := do
  let e ← readEnvironment
  let first ← readDisk [".env"]
  let named := (CommandLine.environment first e).get? Settings.fileVariable
  let disk ← readDisk (candidates args named)
  match CommandLine.program args disk e with
  | .error failure =>
    IO.eprintln ("Error: " ++ failure.message)
    pure 1
  | .ok printed =>
    if printed.isWarning then IO.eprintln "Warning: program has no start block; nothing ran"
    match printed with
    | .settings text => IO.print text
    | .performance report stage => IO.println (Printed.document report stage).pretty
    pure 0
