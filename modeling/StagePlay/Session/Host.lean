import StagePlay.Session.Basic

/-!
# What the host does

The calls of a host on its session. Most are done at once. Four wait: `advance` for some time to
pass, `run` and `join` for a run to end, and `abort` until the run it drops is gone. When one of
these is over, all that was due by then has been done.

A program may go on for ever, and so may a host that waits for it. `patience` is the number of
pieces of work after which a host would give up; it is never reached in practice.
-/

namespace StagePlay.Session

/-! ### Editing -/

/-- Another project, for the runs to come. -/
def load (s : Session) (p : Project) : Session := { s with project := p }

/-- Another program, for the runs to come. -/
def setProgram (s : Session) (p : Program) : Session :=
  { s with project := { s.project with program := p } }

/-- Other actors, for the runs to come. -/
def setActors (s : Session) (actors : List Actor) : Session :=
  { s with project := { s.project with actors } }

/-- Another backdrop, for the runs to come. -/
def setBackdrop (s : Session) (backdrop : Option Backdrop) : Session :=
  { s with project := { s.project with backdrop } }

/-! ### Waiting -/

/-- The pieces of work for which a host waits. -/
def patience : Nat := 1000000000000000000

/-- All that is due up to a time. -/
def drain (limit : Nat) : Nat → Session → Session
  | 0, s => s
  | fuel + 1, s =>
    match s.next? limit with
    | some s' => drain limit fuel s'
    | none => s

/-- All that is due by now. -/
def settle (s : Session) : Session := drain s.now patience s

/-- Waiting until something is so, and then until all that is due has been done. -/
def waitUntil (isSo : Session → Bool) : Nat → Session → Session
  | 0, s => s
  | fuel + 1, s =>
    match s.next? s.now with
    -- all that is due comes first, even if it is so already
    | some s' => waitUntil isSo fuel s'
    | none =>
      if isSo s then s
      else match s.wake? with
        | some t => waitUntil isSo fuel (s.wakeAt t)
        | none => s

/-- **Some milliseconds pass.** -/
def advance (s : Session) (ms : Nat) : Session :=
  -- the host's own timer is cut like every other one
  let limit := s.now + min ms longestWait
  { drain limit patience s with now := limit }

/-! ### Running -/

/-- **A run that the host waits for**, and its result. -/
def run (s : Session) : Session × Option Result :=
  -- the flag is taken down by the asking, whatever becomes of the run
  let begun := { s with stopped := false, reply? := none }.begin none s.project
  let s := waitUntil (fun s => s.reply?.isSome) patience begun
  (s, s.reply?)

/-- **Asking for a run** that begins as soon as the host waits. The number of its handle is given.
-/
def spawn (s : Session) : Session × Nat :=
  let h := s.handles.length
  ({ s with
      stopped := false
      handles := s.handles ++ [.waiting s.project]
      jobs := s.jobs ++ [.begin h] }, h)

/-- Raising or lowering the flag. A run is asked for when it goes up, and only then. -/
def setFlag (s : Session) (raised : Bool) : Session × Option Nat :=
  let rising := raised && !s.flagRaised
  let s := { s with flagRaised := raised }
  if rising then
    let (s, h) := s.spawn
    (s, some h)
  else (s, none)

/-- The result of a handle, if its run has one. -/
def result? (s : Session) (h : Nat) : Option Result :=
  match s.handles[h]? with
  | some (.over r) => some r
  | _ => none

/-- Whether a handle has nothing more to wait for. -/
def isFinished (s : Session) (h : Nat) : Bool :=
  match s.handles[h]? with
  | some (.over _) => true
  | some .dropped => true
  | _ => false

/-- Waiting for the run of a handle. -/
def join (s : Session) (h : Nat) : Session := waitUntil (fun s => s.isFinished h) patience s

/-- The jobs in which the run of a handle has its place, if it has one: its beginning, or what goes
on for it now. -/
def isPlaceOf (s : Session) (h : Nat) (j : Job) : Bool :=
  match s.handles[h]? with
  | some (.waiting _) => j = .begin h
  | some .playing =>
    match s.engine.scheduling, j with
    | .sequential, .chain _ => true
    | .concurrent, .collect => true
    | _, _ => false
  | _ => false

/-- **Dropping the run of a handle**, in its turn. -/
def abort (s : Session) (h : Nat) : Session :=
  let jobs :=
    -- a run that waits for its turn is dropped in that turn, any other one behind all that is
    -- to be done
    if s.jobs.any fun j => s.isPlaceOf h j then
      s.jobs.map fun j => if s.isPlaceOf h j then .drop h else j
    else s.jobs ++ [.drop h]
  settle { s with jobs }

/-- **Calling off the run** that is going on. Its chains wake up. -/
def stopEngine (s : Session) : Session :=
  let wasCalledOff := s.engine.isCalledOff
  let engine := s.engine.stop
  -- a second call finds nobody waiting
  if engine.isCalledOff && !wasCalledOff then
    { s with
      engine
      jobs := s.jobs ++ s.timers.map fun timer => .chain timer.chain
      timers := [] }
  else { s with engine }

/-- **Stopping**: the run that is going on is called off, the flag goes down, and the session counts
as stopped until the next run is asked for. -/
def stop (s : Session) : Session := { s with stopped := true, flagRaised := false }.stopEngine

/-! ### Looking -/

/-- A change of a figure by the host, and whether there is one of that id. -/
def poke (s : Session) (id : String) (c : Change) : Session × Bool :=
  let (engine, signals, changed) := s.engine.poke id c
  ({ s with engine }.hearAll signals, changed)

/-- Whether the stage was shown since the host last looked, and the state shown last. -/
def look (s : Session) : Session × Bool × Stage :=
  let news := s.viewer.hasNews s.engine.stage
  let (shown, viewer) := s.viewer.look s.engine.stage
  ({ s with viewer }, news, shown)

/-- The events that wait, taken away. -/
def takeEvents (s : Session) : Session × Mailbox Nat := ({ s with mailbox := .empty }, s.mailbox)

/-- The frames shown, in order and each with its time, taken away. -/
def takeFrames (s : Session) : Session × List (Nat × Stage) :=
  ({ s with frames := [] }, s.frames.reverse)

/-- The notes, in order, taken away. -/
def takeNotes (s : Session) : Session × List Note := ({ s with notes := [] }, s.notes.reverse)

end StagePlay.Session
