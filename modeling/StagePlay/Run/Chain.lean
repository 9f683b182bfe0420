import StagePlay.Program.Basic
import StagePlay.Routine.Basic
import StagePlay.Run.Event

/-!
# Chains

A chain carries out the blocks that follow from a start block, one after the other, for its owner.
Its `script` is what it has yet to do, the next task first; a repeated body is put in front of the
script once for each of its rounds. Between tasks a chain may rest, for a pause or for the next
frame of a motion.

* `Chain.step` — the next thing that a chain does;
* `Chain.wake?` — the time at which a resting chain goes on;
* `Signal` — what the outside can see of a step.

A chain keeps a clock of its own, which stands at the time at which it last went on. So what it does
depends on nobody's idea of time but its own, whichever other chains have their turns in between.
-/

namespace StagePlay

/-- **What is performed**, with which routines, and with how much time from frame to frame. Nothing
of it changes in the course of a run. -/
structure Score where
  program : Program
  repertoire : Repertoire
  interval : Duration

/-- **What the chains of a run share.** Each step of a chain takes the scene as the steps before
have left it, whosever steps these were. -/
structure Scene where
  stage : Stage
  operations : Nat
  cancelled : Bool
  deriving DecidableEq, Repr

/-- A note that a routine has taken: its block, and what its cue was. -/
structure Note where
  block : String
  cue : Cue
  deriving DecidableEq, Repr

/-- **What the outside can see**: a new state of the stage, an event, or a note. -/
inductive Signal where
  | frame (s : Stage)
  | event (e : Event Nat)
  | note (n : Note)
  deriving DecidableEq, Repr

/-! ### What is done at once -/

namespace Scene

/-- What a routine can look at in a scene. -/
def cue (s : Scene) (owner : Option String) : Cue := ⟨owner, s.stage, s.operations, s.cancelled⟩

/-- A change of the owner, which shows a frame if the owner is on the stage. -/
def change (s : Scene) (owner : Option String) (c : Change) : Scene × List Signal :=
  match owner.bind fun id => s.stage.change? id c with
  | some stage => ({ s with stage }, [.frame stage])
  | none => (s, [])

/-- One thing that is done at once for a block. -/
def perform (s : Scene) (owner : Option String) (b : Block) : Effect → Scene × List Signal
  | .change c => s.change owner c
  | .announce kind => (s, [.event (.unknownOperation b.id kind)])
  | .note => (s, [.note ⟨b.id, s.cue owner⟩])

/-- Things that are done at once, one after the other, with no turn of another chain in between. -/
def performAll (s : Scene) (owner : Option String) (b : Block) :
    List Effect → Scene × List Signal
  | [] => (s, [])
  | e :: es =>
    let (s', signals) := s.perform owner b e
    let (s'', others) := s'.performAll owner b es
    (s'', signals ++ others)

end Scene

/-! ### Tasks and states -/

/-- **One thing to do.** -/
inductive Task where
  /-- Carrying out a block, and then what follows from it. -/
  | enter (b : Block)
  /-- Carrying out the block of an id, if there is one. -/
  | visit (id : String)
  /-- Carrying out the body of a block so many times. -/
  | rounds (b : Block) (left : Nat)
  deriving Repr

/-- **What a chain waits for**: a time, or the next frame of a motion that began at some time. -/
inductive Rest where
  | pause (wake : Nat)
  | frame (start : Nat) (tween : Tween) (k : Nat) (motion : Motion)
  deriving DecidableEq, Repr

/-- The time at which a rest is over. -/
def Rest.wake : Rest → Nat
  | .pause wake => wake
  | .frame start tween k _ => start + tween.offset k

/-- How a chain ended. -/
inductive Ending where
  | completed
  | cancelled
  | broken
  deriving DecidableEq, Repr

/-- What a chain is doing. -/
inductive Chain.State where
  | walking
  | resting (rest : Rest)
  | ended (how : Ending)
  deriving DecidableEq, Repr

/-- **A chain.** -/
structure Chain where
  owner : Option String
  clock : Nat
  script : List Task
  state : Chain.State
  deriving Repr

/-- The next block of a chain, as a task. -/
def Block.following (b : Block) : List Task := b.next.toList.map .visit

namespace Chain

/-- The chain that begins with a block. -/
def ofStart (owner : Option String) (clock : Nat) (b : Block) : Chain :=
  ⟨owner, clock, [.enter b], .walking⟩

/-- How a chain ended, if it did. -/
def ending? (c : Chain) : Option Ending :=
  match c.state with
  | .ended how => some how
  | _ => none

/-- The time at which a resting chain goes on. -/
def wake? (c : Chain) : Option Nat :=
  match c.state with
  | .resting rest => some rest.wake
  | _ => none

/-- A chain at its end. -/
def finish (c : Chain) (how : Ending) : Chain := { c with state := .ended how }

/-- **How a chain goes on** after what a block did at once. A rest that is over at once is a rest
all the same, in which other chains may have their turns. -/
def lapse (c : Chain) (interval : Duration) (script : List Task) : Lapse → Chain
  | .goOn => { c with script, state := .walking }
  | .giveUp => c.finish .cancelled
  | .breakDown => c.finish .broken
  | .pause d => { c with script, state := .resting (.pause (c.clock + waitTicks d)) }
  -- the first frame is due at once, in the same turn
  | .animate d m =>
    { c with script, state := .resting (.frame c.clock (.ofDurations d interval) 0 m) }

/-- **Carrying out a block**: it is counted, its routine acts, and then its body and the next block
follow. -/
def enter (c : Chain) (score : Score) (scene : Scene) (b : Block) (script : List Task) :
    Chain × Scene × List Signal :=
  -- the routine sees its own block counted
  let counted := { scene with operations := scene.operations + 1 }
  let act := score.repertoire.act (counted.cue c.owner) b
  let (scene', signals) := counted.performAll c.owner b act.effects
  let script' := .rounds b b.rounds :: (b.following ++ script)
  (c.lapse score.interval script' act.lapse, scene', signals)

/-- Going on after a rest: a frame is shown, and after the last one the chain walks on. -/
def resume (c : Chain) (scene : Scene) (rest : Rest) : Chain × Scene × List Signal :=
  let awake := { c with clock := rest.wake }
  match rest with
  | .pause _ => ({ awake with state := .walking }, scene, [])
  | .frame start tween k motion =>
    let (scene', signals) := scene.change c.owner (motion.change (tween.progress k))
    -- the progress decides, and not the number of frames, whether this was the last one
    let state := if tween.isLast k then .walking else .resting (.frame start tween (k + 1) motion)
    ({ awake with state }, scene', signals)

/-- **The next thing that a chain does.** Whether the run is called off is asked before each block,
before each round of a body, and at the end of each rest. -/
def step (c : Chain) (score : Score) (scene : Scene) : Chain × Scene × List Signal :=
  match c.state with
  | .ended _ => (c, scene, [])
  | .resting rest =>
    if scene.cancelled then (c.finish .cancelled, scene, []) else c.resume scene rest
  | .walking =>
    match c.script with
    | [] => (c.finish .completed, scene, [])
    | .enter b :: script =>
      if scene.cancelled then (c.finish .cancelled, scene, []) else c.enter score scene b script
    | .visit id :: script =>
      match score.program.find? id with
      -- an id without a block ends the part of the script that it stands for
      | none => ({ c with script }, scene, [])
      | some b => ({ c with script := .enter b :: script }, scene, [])
    | .rounds _ 0 :: script => ({ c with script }, scene, [])
    | .rounds b (left + 1) :: script =>
      if scene.cancelled then (c.finish .cancelled, scene, [])
      -- one round: each child leads a chain of its own, and then the rounds that are left
      else ({ c with script := b.children.map .visit ++ .rounds b left :: script }, scene, [])

end Chain

end StagePlay
