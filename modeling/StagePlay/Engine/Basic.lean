import StagePlay.Engine.Guard
import StagePlay.Project
import StagePlay.Run.Basic
import StagePlay.Stage.Publication

/-!
# The engine

An engine has a stage that is watched, and performs one project at a time on it. All that happens to
an engine is one of these:

* `Engine.start` — a run is asked for; it begins, is over at once, or is ignored;
* `Engine.step` — a chain of the run takes a step;
* `Engine.conclude` — the run ends, if its chains have;
* `Engine.abandon` — the run is dropped;
* `Engine.stop` — the run is called off;
* `Engine.poke` — someone else changes a figure.

Each gives the signals that it sends, in order. A frame among them is a new state of the stage, and
is published there.
-/

namespace StagePlay

/-- **An engine.** -/
structure Engine where
  repertoire : Repertoire
  interval : Duration
  scheduling : Scheduling
  stage : PublicStage
  guard : Guard
  run? : Option Run

namespace Engine

/-- An engine that has not run. -/
def fresh (repertoire : Repertoire) (interval : Duration) (scheduling : Scheduling) : Engine :=
  ⟨repertoire, interval, scheduling, .fresh, .fresh, none⟩

/-- Whether a run is going on. -/
def isRunning (e : Engine) : Bool := e.guard.held

/-- Whether the run that is going on is called off. -/
def isCalledOff (e : Engine) : Bool := e.run?.any fun r => e.guard.isCalledOff r.number

/-- A chain of the run. -/
def chain? (e : Engine) (i : Nat) : Option Chain := e.run?.bind fun r => r.chains[i]?

/-- **Asking for a run** at some time. The report is given at once where no chain is to follow. -/
def start (e : Engine) (p : Project) (clock : Nat) : Engine × List Signal × Option Report :=
  match e.guard.acquire? with
  | none => (e, [], some ⟨.ignored, 0⟩)
  | some guard =>
    -- the stage is set in any case, also for a program that starts nothing
    let set := Stage.set p.actors p.backdrop
    let stage := e.stage.set p.actors p.backdrop
    if p.program.starts.isEmpty then
      ({ e with stage, guard := guard.release }, [.frame set, .event .noStartBlock],
        some ⟨.noStartBlock, 0⟩)
    else
      let score : Score := ⟨p.program, e.repertoire, e.interval⟩
      let run := Run.ofScore guard.number score e.scheduling set clock
      ({ e with stage, guard, run? := some run },
        [.frame set, .event (.runStarted guard.number)], none)

/-- Publishing the frames among some signals. -/
def publish (stage : PublicStage) : List Signal → PublicStage
  | [] => stage
  | .frame s :: signals => publish (stage.publish s) signals
  | _ :: signals => publish stage signals

/-- **A step of a chain.** -/
def step (e : Engine) (i : Nat) : Engine × List Signal :=
  match e.run? with
  | none => (e, [])
  | some r =>
    let (r', _, signals) := r.step e.isCalledOff e.stage.stage i
    ({ e with run? := some r', stage := publish e.stage signals }, signals)

/-- The engine without its run. -/
def abandon (e : Engine) : Engine := { e with run? := none, guard := e.guard.release }

/-- **The end of the run**, if its chains have ended. -/
def conclude (e : Engine) : Engine × List Signal × Option Result :=
  match e.run? with
  | none => (e, [], none)
  | some r =>
    match r.result? e.isCalledOff with
    | none => (e, [], none)
    -- a breakdown ends the run without a word
    | some .broken => (e.abandon, [], some .broken)
    | some (.report report) =>
      (e.abandon, [.event (.runFinished r.number report.outcome)], some (.report report))

/-- **Calling off the run** that is going on, if there is one. -/
def stop (e : Engine) : Engine := { e with guard := e.guard.stop }

/-- A change of a figure by someone else, and whether there is one of that id. -/
def poke (e : Engine) (id : String) (c : Change) : Engine × List Signal × Bool :=
  match e.stage.change id c with
  | (stage, true) => ({ e with stage }, [.frame stage.stage], true)
  | (_, false) => (e, [], false)

end Engine

end StagePlay
