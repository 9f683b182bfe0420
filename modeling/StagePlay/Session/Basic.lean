import StagePlay.Engine.Basic

/-!
# Sessions

A session is a host at work with one engine. The host edits a project, starts and stops runs and
looks at what they do; whatever it starts goes on only while it waits. Time is a number of
milliseconds, and it passes only when there is nothing left to do before the next timer.

What can be done at once waits in a queue of jobs, and what cannot yet be done waits for its timer.
`Session.move?` is the next piece of the first job, and `Session.next?` is that, or else the next
timer.

Chains that wait for the same millisecond go on in the order in which they began to wait. A run that
is called off wakes its chains in that order too.
-/

namespace StagePlay

/-- **A job**: something that can go on now. -/
inductive Job where
  /-- A run that was asked for begins. -/
  | begin (handle : Nat)
  /-- A chain of the run goes on. -/
  | chain (i : Nat)
  /-- The run looks whether its chains have ended. -/
  | collect
  /-- A run is dropped. -/
  | drop (handle : Nat)
  deriving DecidableEq, Repr

/-- A chain that waits for a time. -/
structure Timer where
  wake : Nat
  chain : Nat
  deriving DecidableEq, Repr

/-- **What became of a run that was asked for.** -/
inductive Handle where
  /-- It is to begin with the project of that time. -/
  | waiting (p : Project)
  /-- It is going on. -/
  | playing
  /-- It is over. -/
  | over (r : Result)
  /-- It was dropped. -/
  | dropped

/-- **A session.** `reply?` is the result of the run that the host itself waits for, and `frames`
and `notes` are what has been shown and noted, the last of it first. -/
structure Session where
  engine : Engine
  now : Nat
  jobs : List Job
  timers : List Timer
  project : Project
  flagRaised : Bool
  stopped : Bool
  handles : List Handle
  reply? : Option Result
  mailbox : Mailbox Nat
  frames : List (Nat × Stage)
  notes : List Note
  viewer : Viewer

namespace Session

/-- A session at its beginning. -/
def ofEngine (engine : Engine) : Session where
  engine := engine
  now := 0
  jobs := []
  timers := []
  project := .empty
  flagRaised := false
  stopped := false
  handles := []
  reply? := none
  mailbox := .empty
  frames := []
  notes := []
  viewer := .ofStage engine.stage

/-! ### What is heard and seen -/

/-- One signal that reaches the host. -/
def hear (s : Session) : Signal → Session
  | .frame stage => { s with frames := (s.now, stage) :: s.frames }
  | .event e => { s with mailbox := s.mailbox.add e }
  | .note n => { s with notes := n :: s.notes }

/-- Signals that reach the host, in order. -/
def hearAll (s : Session) (signals : List Signal) : Session := signals.foldl hear s

/-! ### The run and who asked for it -/

/-- The jobs with which a run begins: its first chain, or all of them behind what is to be done
already. -/
def withChains (s : Session) (jobs : List Job) : List Job :=
  match s.engine.scheduling with
  -- the first chain goes on in the turn in which the run begins
  | .sequential => .chain 0 :: jobs
  | .concurrent =>
    -- every chain takes its place behind what is to be done already
    jobs ++ (List.range (s.engine.run?.elim 0 fun r => r.chains.length)).map Job.chain

/-- The handle of the run that is going on, unless the host itself waits for it. -/
def playing? (s : Session) : Option Nat :=
  s.handles.findIdx? fun
    | .playing => true
    | _ => false

/-- Giving a result to whoever asked for the run. -/
def answer (s : Session) (asked : Option Nat) (result : Result) : Session :=
  match asked with
  | some h => { s with handles := s.handles.set h (.over result) }
  | none => { s with reply? := some result }

/-- **A run begins**, asked for by a handle or by the host itself. -/
def begin (s : Session) (asked : Option Nat) (p : Project) : Session :=
  let (engine, signals, report?) := s.engine.start p s.now
  let s := { s with engine }.hearAll signals
  match report? with
  | some report => s.answer asked (.report report)
  | none =>
    let s := { s with jobs := s.withChains s.jobs }
    match asked with
    | some h => { s with handles := s.handles.set h .playing }
    | none => s

/-- The run ends, if its chains have. -/
def conclude (s : Session) : Session :=
  match s.engine.conclude with
  | (_, _, none) => s
  | (engine, signals, some result) =>
    ({ s with engine }.hearAll signals).answer s.playing? result

/-- Whether a job belongs to the run that is going on. -/
def Job.isOfRun : Job → Bool
  | .chain _ => true
  | .collect => true
  | _ => false

/-- A run is dropped, whether it has begun or not. -/
def drop (s : Session) (h : Nat) : Session :=
  match s.handles[h]? with
  | some (.waiting _) => { s with handles := s.handles.set h .dropped }
  | some .playing =>
    { s with
      engine := s.engine.abandon
      jobs := s.jobs.filter fun j => !Job.isOfRun j
      timers := []
      handles := s.handles.set h .dropped }
  | _ => s

/-! ### Chains at work -/

/-- Whether a chain has to wait until a later time. -/
def mustWait (s : Session) (c : Chain) : Option Nat :=
  -- a call reaches a chain in whatever it waits for, so it does not wait any longer
  if s.engine.isCalledOff then none else c.wake?.filter fun wake => s.now < wake

/-- What follows from the end of a chain. One after the other, the next chain begins, or the run is
over; all at once, the run is to look whether this was the last one. -/
def afterChain (s : Session) (i : Nat) (c : Chain) : Session :=
  match s.engine.scheduling with
  | .sequential =>
    if c.ending? = some .completed && (s.engine.chain? (i + 1)).isSome then
      -- in the same turn
      { s with jobs := .chain (i + 1) :: s.jobs }
    else s.conclude
  | .concurrent =>
    -- looking once is enough for all chains that end before it
    if s.jobs.contains .collect then s else { s with jobs := s.jobs ++ [.collect] }

/-- A piece of the work of a chain: a step, a rest that begins, or what follows from its end. -/
def moveChain (s : Session) (i : Nat) (jobs : List Job) : Session :=
  match s.engine.chain? i with
  | none => { s with jobs }
  | some c =>
    match s.mustWait c with
    -- timers stand in the order in which they were set, and that is the order of waking
    | some wake => { s with jobs, timers := s.timers ++ [⟨wake, i⟩] }
    | none =>
      -- the job of a chain stays at the head of the queue until the chain waits or ends
      if c.ending?.isSome then { s with jobs }.afterChain i c
      else
        let (engine, signals) := s.engine.step i
        { s with engine }.hearAll signals

/-! ### Jobs and timers -/

/-- **The next piece of the first job**, if there is any job. -/
def move? (s : Session) : Option Session :=
  match s.jobs with
  | [] => none
  | .begin h :: jobs =>
    match s.handles[h]? with
    | some (.waiting p) => some ({ s with jobs }.begin (some h) p)
    -- it was dropped before it began
    | _ => some { s with jobs }
  | .chain i :: jobs => some (s.moveChain i jobs)
  | .collect :: jobs => some { s with jobs }.conclude
  | .drop h :: jobs => some ({ s with jobs }.drop h)

/-- The time of the next timer. -/
def wake? (s : Session) : Option Nat := (s.timers.map Timer.wake).min?

/-- Passing to a time, and waking all that waits for it. -/
def wakeAt (s : Session) (t : Nat) : Session :=
  { s with
    now := max s.now t
    jobs := s.jobs ++ (s.timers.filter fun timer => timer.wake ≤ t).map fun timer =>
      .chain timer.chain
    timers := s.timers.filter fun timer => !(timer.wake ≤ t) }

/-- **What happens next** up to a time: a piece of the first job, or else the next timer. -/
def next? (s : Session) (limit : Nat) : Option Session :=
  match s.move? with
  | some s' => some s'
  | none =>
    match s.wake? with
    | none => none
    | some t => if t ≤ limit then some (s.wakeAt t) else none

end Session

end StagePlay
