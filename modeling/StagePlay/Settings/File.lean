import StagePlay.Settings.Basic
import StagePlay.Toml.Text

/-!
# Settings as a file

`Settings.toFile` writes settings as the text of a settings file, one setting a line. The format has
no numbers beyond 64 bits with a sign, so a time from frame to frame that takes more cannot be
written.
-/

namespace StagePlay

open Number

/-- What keeps settings from being written. -/
inductive RenderError where
  | outOfRange
  deriving DecidableEq, Repr

/-- The message of what keeps settings from being written. -/
def RenderError.message : RenderError → String
  | .outOfRange => "out-of-range value for u64 type"

/-- One line that gives a value to a key. -/
def settingLine (key : String) (value : List Char) : List Char :=
  key.toList ++ " = ".toList ++ value ++ ['\n']

/-- **The text of a settings file** with some settings. -/
def Settings.toFile (s : Settings) : Except RenderError String :=
  if s.frameMillis < signedBound then
    .ok (String.ofList
      (settingLine "frame_interval_ms" (digitChars s.frameMillis) ++
        settingLine "scheduling" (Toml.writeText s.scheduling.name) ++
        settingLine "log_filter" (Toml.writeText s.logFilter)))
  else .error .outOfRange

end StagePlay
