import StagePlay.Stage.Codec
import StagePlay.Routine.Further
import StagePlay.CommandLine.Basic
import StagePlay.Main
import StagePlay.Proofs.Program.Unfolding
import StagePlay.Proofs.Routine.Effect
import StagePlay.Proofs.Chain.Step
import StagePlay.Proofs.Engine.Turns
import StagePlay.Proofs.Run.Sequential
import StagePlay.Proofs.Engine.Exclusion
import StagePlay.Proofs.Engine.Calls
import StagePlay.Proofs.Engine.Stopping
import StagePlay.Proofs.Chain.Alone
import StagePlay.Proofs.Run.Isolated
import StagePlay.Proofs.Run.Outline
import StagePlay.Proofs.Engine.Past
import StagePlay.Proofs.Program.Nesting
import StagePlay.Proofs.Engine.Nesting
import StagePlay.Proofs.Routine.Field
import StagePlay.Proofs.Engine.Frames
import StagePlay.Proofs.Session.Stopping
import StagePlay.Proofs.Project.Saving
import StagePlay.Proofs.Stage.Publication
import StagePlay.Proofs.Program.Walk
import StagePlay.Proofs.Program.Weight
import StagePlay.Proofs.Chain.Way
import StagePlay.Proofs.Engine.Ending
import StagePlay.Proofs.Motion.Ending
import StagePlay.Proofs.Engine.Yielding
import StagePlay.Proofs.Number.Value
import StagePlay.Proofs.Number.Rounding
import StagePlay.Proofs.Number.Arithmetic
import StagePlay.Proofs.Motion.Way
import StagePlay.Proofs.Motion.Progress
import StagePlay.Proofs.Routine.Bounds
import StagePlay.Proofs.Stage.Saving
import StagePlay.Proofs.Engine.Bounds
import StagePlay.Proofs.Run.Crossing
import StagePlay.Proofs.Engine.Crossing
import StagePlay.Proofs.Routine.Cost
import StagePlay.Proofs.Chain.Cost
import StagePlay.Proofs.Run.Cost
import StagePlay.Proofs.Session.Punctual
import StagePlay.Proofs.Session.Duration
import StagePlay.Proofs.Session.Ignored
import StagePlay.Proofs.Program.Lookup
import StagePlay.Proofs.Program.Spelling
import StagePlay.Proofs.Run.Recast
import StagePlay.Proofs.Session.Spelling
import StagePlay.Proofs.Motion.Frames
import StagePlay.Proofs.Program.Saving
import StagePlay.Proofs.Json.Rearranged
import StagePlay.Proofs.Stage.Rearranged
import StagePlay.Proofs.Run.Rearranged
import StagePlay.Proofs.Run.Uuid
import StagePlay.Proofs.Run.Shown
import StagePlay.Proofs.Number.Halves
import StagePlay.Proofs.Routine.Grid
import StagePlay.Proofs.Chain.Glide
import StagePlay.Proofs.Settings.Layers
import StagePlay.Proofs.Number.Digits
import StagePlay.Proofs.Toml.Text
import StagePlay.Proofs.Toml.Scalar
import StagePlay.Proofs.Toml.Document
import StagePlay.Proofs.Settings.Saving
import StagePlay.Proofs.Stage.Changes
import StagePlay.Proofs.Program.Tags
import StagePlay.Proofs.Engine.Tags
