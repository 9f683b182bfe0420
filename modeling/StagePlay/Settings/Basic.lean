import StagePlay.Json.Decode
import StagePlay.Motion.Tween
import StagePlay.Run.Codec

/-!
# Settings

What can be set for an engine: the time from frame to frame, the order in which chains have their
turns, and which messages go to the log. This module holds the settings and their form as a
document; where they come from is the matter of `StagePlay.Settings.Load`.
-/

namespace StagePlay

open Json

/-- **The settings.** The time from frame to frame is kept as it was asked for. -/
structure Settings where
  frameMillis : Nat
  scheduling : Scheduling
  logFilter : String
  deriving DecidableEq, Repr

namespace Settings

/-- The settings if nothing is said. -/
def default : Settings := ⟨16, .sequential, "info"⟩

/-- The time from frame to frame: a millisecond at least. -/
def frameInterval (s : Settings) : Duration := .ofMillis (max s.frameMillis 1)

/-- Settings that are being filled in. -/
structure Draft where
  frameMillis : Option Nat := none
  scheduling : Option Scheduling := none
  logFilter : Option String := none

/-- How settings are written, with `left` more levels allowed inside them. -/
def shape (left : Nat) : Shape Draft where
  name := "EngineConfig"
  fields :=
    [ { name := "frame_interval_ms", aliases := [], presence := .optional,
        filled := fun d => d.frameMillis.isSome,
        decode := fun node d => do let n ← decodeNat node; pure { d with frameMillis := some n } },
      { name := "scheduling", aliases := [], presence := .optional,
        filled := fun d => d.scheduling.isSome,
        decode := fun node d => do
          let s ← Scheduling.decode left node; pure { d with scheduling := some s } },
      { name := "log_filter", aliases := [], presence := .optional,
        filled := fun d => d.logFilter.isSome,
        decode := fun node d => do let s ← decodeText node; pure { d with logFilter := some s } } ]
  blank := {}

/-- Reading settings. What is not there is as by default. -/
def decode (left : Nat) (node : Node) : Except Error Settings := do
  let d ← (shape (left - 1)).decode left node
  pure
    ⟨d.frameMillis.getD default.frameMillis, d.scheduling.getD default.scheduling,
      d.logFilter.getD default.logFilter⟩

/-- Writing settings. -/
def encode (s : Settings) : Value :=
  .object
    [ ("frame_interval_ms", .nat s.frameMillis), ("log_filter", .text s.logFilter),
      ("scheduling", s.scheduling.encode) ]

end Settings

end StagePlay
