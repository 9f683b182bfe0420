import StagePlay.Run.Chain

/-!
# Runs

A run performs a score by its chains, one for each start block. They have their turns one after the
other or all at once, as the scheduling says: `Run.mayAct` tells whose turn it can be, and
`Run.step` is one step of one chain. Any order of turns that `Run.mayAct` allows is a run.

`Run.result?` tells how a run ended, once it has.
-/

namespace StagePlay

/-- What a run reports at its end: how it ended, and how many blocks were carried out. -/
structure Report where
  outcome : Outcome
  operations : Nat
  deriving DecidableEq, Repr

/-- **How a run ended**: with a report, or by a breakdown that leaves none. -/
inductive Result where
  | report (r : Report)
  | broken
  deriving DecidableEq, Repr

/-- **A run.** -/
structure Run where
  number : Nat
  score : Score
  scheduling : Scheduling
  operations : Nat
  chains : List Chain

namespace Run

/-- The owner of the chain of a start block: the actor that the block names, or else the first one
on the stage. -/
def ownerOf (stage : Stage) (start : Block) : Option String :=
  (start.text? "actor").or stage.firstId?

/-- A run at its beginning, with nothing done. -/
def ofScore (number : Nat) (score : Score) (scheduling : Scheduling) (stage : Stage) (clock : Nat) :
    Run where
  number := number
  score := score
  scheduling := scheduling
  operations := 0
  chains := score.program.starts.map fun b => .ofStart (ownerOf stage b) clock b

/-- **Whose turn it can be.** One after the other, a chain has to wait until all chains before it
are completed. -/
def mayAct (r : Run) (i : Nat) : Bool :=
  match r.scheduling with
  | .sequential => (r.chains.take i).all fun c => c.ending? = some .completed
  | .concurrent => true

/-- Putting a chain back in its place. One after the other, the next chain begins when this one is
completed. -/
def put (r : Run) (i : Nat) (c : Chain) : List Chain :=
  let chains := r.chains.set i c
  if r.scheduling = .sequential && c.ending? = some .completed then
    -- the next chain takes over the clock, so that it begins where this one ended
    chains.modify (i + 1) fun next => { next with clock := c.clock }
  else chains

/-- **One step of one chain**, if it can be its turn. -/
def step (r : Run) (cancelled : Bool) (stage : Stage) (i : Nat) : Run × Stage × List Signal :=
  match r.chains[i]? with
  | none => (r, stage, [])
  | some c =>
    if r.mayAct i then
      let (c', scene, signals) := c.step r.score ⟨stage, r.operations, cancelled⟩
      ({ r with operations := scene.operations, chains := r.put i c' }, scene.stage, signals)
    else (r, stage, [])

/-- The report of a run of which nothing was called off if `whole`. -/
def report (r : Run) (whole : Bool) : Result :=
  .report ⟨if whole then .completed else .stopped, r.operations⟩

/-- **How a run ended**, if it has. One after the other, the first chain that is not completed ends
the run; all at once, the run ends with its last chain. -/
def result? (r : Run) (cancelled : Bool) : Option Result :=
  match r.scheduling with
  | .sequential =>
    match r.chains.find? fun c => c.ending? ≠ some .completed with
    -- a stop that comes after the last step of the last chain still counts
    | none => some (r.report !cancelled)
    | some c =>
      match c.ending? with
      | none => none
      | some .broken => some .broken
      | some _ => some (r.report false)
  | .concurrent =>
    if r.chains.all fun c => c.ending?.isSome then
      some (r.report (!cancelled && r.chains.all fun c => c.ending? = some .completed))
    else none

end Run

end StagePlay
