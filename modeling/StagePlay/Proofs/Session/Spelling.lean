import StagePlay.Proofs.Program.Spelling
import StagePlay.Proofs.Run.Recast
import StagePlay.Proofs.Session.Stopping

/-!
# Sessions do not see how numbers are written

A host that loads a program gets to see the same whether its numbers are written as numbers or as
texts. `Session.asRead` is a session with all its programs as they are read, those that wait to be run
and the one that is being performed. It goes on as the session itself does:

* `Session.next?_asRead`, `Session.drain_asRead` — what a session does by itself, and when;
* `Session.meet_asRead` — what can happen in it in any order, with calls of the host in between; here
  what can happen has names (`Happening`), so that the same can happen in two sessions.

So two sessions that are equal as they are read stay so, and tell the same (`Session.TellsAs`):
`Session.spelling_unseen`.
-/

namespace StagePlay

/-- Reading the numbers of a block beforehand cannot be seen by anyone who performs it: its id,
kind, children, next block and rounds are the same, and so is what its routine does. -/
theorem Block.unseen_asRead : Block.Unseen Block.asRead where
  id_eq := Block.id_asRead
  operation_eq := Block.operation_asRead
  children_eq := Block.children_asRead
  next_eq := Block.next_asRead
  rounds_eq := Block.rounds_asRead
  routine_eq := Operation.routine_asRead

/-- A project with its program as it is read. Actors and backdrop have no numbers that are written
in two ways. -/
def Project.asRead (p : Project) : Project := { p with program := p.program.asRead }

/-- **A run with its blocks as they are read**: the program of its score, and every block that a
chain has still to do. -/
def Run.asRead (r : Run) : Run := r.recast Block.asRead r.score.program.asRead

/-- A handle with the program that waits for it as it is read. Once the run has begun, the handle
holds no program any more. -/
def Handle.asRead : Handle → Handle
  | .waiting p => .waiting p.asRead
  | .playing => .playing
  | .over r => .over r
  | .dropped => .dropped

/-! ### Engines -/

namespace Engine

/-- **An engine with its run as it is read.** -/
def asRead (e : Engine) : Engine := { e with run? := e.run?.map Run.asRead }

variable (e : Engine)

theorem isCalledOff_asRead : e.asRead.isCalledOff = e.isCalledOff := by
  obtain ⟨repertoire, interval, scheduling, stage, guard, run?⟩ := e
  cases run? <;> rfl

theorem chain?_asRead (i : Nat) : e.asRead.chain? i = (e.chain? i).map (Chain.recast Block.asRead) := by
  obtain ⟨repertoire, interval, scheduling, stage, guard, run?⟩ := e
  cases run? with
  | none => rfl
  | some r => exact r.getElem?_recast _ _ i

/-- Asking for a run goes the same way on the program as it is read. The start blocks are the same
ones, and each chain belongs to the same actor, whose name is not a number. -/
theorem start_asRead (p : Project) (clock : Nat) :
    e.asRead.start p.asRead clock = ((e.start p clock).1.asRead, (e.start p clock).2) := by
  have hguard : e.asRead.guard = e.guard := rfl
  have hstarts : p.asRead.program.starts = p.program.starts.map Block.asRead :=
    p.program.starts_asRead
  unfold start
  rw [hguard, hstarts, List.isEmpty_map]
  cases e.guard.acquire? with
  -- the guard is held, or there is no start block: the program is not looked at any further
  | none => rfl
  | some guard =>
    dsimp only
    cases p.program.starts.isEmpty with
    | true => rfl
    | false =>
      have hrun := Run.recast_ofScore (q := p.asRead.program) ⟨p.program, e.repertoire, e.interval⟩
        hstarts (fun b => b.text?_asRead rfl) guard.number e.scheduling
        (.set p.actors p.backdrop) clock
      exact Prod.ext (congrArg (fun run => ({ e with
        stage := e.stage.set p.actors p.backdrop, guard, run? := some run } : Engine)) hrun) rfl

/-- The end of a run comes at the same time and with the same report, as it depends on how the
chains have ended and on nothing that they have still to do. -/
theorem conclude_asRead : e.asRead.conclude = (e.conclude.1.asRead, e.conclude.2) := by
  obtain ⟨repertoire, interval, scheduling, stage, guard, run?⟩ := e
  cases run? with
  | none => rfl
  | some r =>
    have hresult := r.result?_recast Block.asRead r.score.program.asRead (guard.isCalledOff r.number)
    unfold conclude isCalledOff asRead
    dsimp only [Option.map_some, Option.any_some]
    rw [show r.asRead.number = r.number from rfl,
      show r.asRead.result? (guard.isCalledOff r.number) = r.result? (guard.isCalledOff r.number) from
        hresult]
    cases r.result? (guard.isCalledOff r.number) with
    | none => rfl
    | some result => cases result <;> rfl

theorem poke_asRead (id : String) (c : Change) :
    e.asRead.poke id c = ((e.poke id c).1.asRead, (e.poke id c).2) := by
  have hstage : e.asRead.stage = e.stage := rfl
  unfold poke
  rw [hstage]
  cases e.stage.change id c with
  | mk stage known => cases known <;> rfl

/-- **A step of a chain** is the same on the program as it is read. Here the session's invariant is
needed, which says that the run knows no routines but those of the language; a routine from outside
might look at how a number is written. -/
theorem step_asRead {rep : Repertoire} {e : Engine} (h : e.Tidy rep) (hpart : rep.IsPartOf .builtin)
    (i : Nat) : e.asRead.step i = ((e.step i).1.asRead, (e.step i).2) := by
  have hoff := e.isCalledOff_asRead
  have hunbroken := h.unbroken hpart
  unfold step
  rw [hoff]
  obtain ⟨repertoire, interval, scheduling, stage, guard, run?⟩ := e
  cases run? with
  | none => rfl
  | some r =>
    have hstep := Run.step_recast Block.unseen_asRead ((hunbroken r rfl).1 ▸ hpart)
      (Program.find?_asRead r.score.program)
      (Engine.isCalledOff ⟨repertoire, interval, scheduling, stage, guard, some r⟩) stage.stage i
    have hscore := r.score_step
      (Engine.isCalledOff ⟨repertoire, interval, scheduling, stage, guard, some r⟩) stage.stage i
    unfold asRead Run.asRead
    dsimp only [Option.map_some]
    rw [hstep, hscore]

end Engine

/-! ### What can happen, by name -/

/-- **What can happen in a session**, named so that the same can happen in another one.
`Session.Step` says what a session becomes, and there is no saying of two sessions that the same
step was taken in both. -/
inductive Happening where
  | arrange (now : Nat) (jobs : List Job) (timers : List Timer)
  | edit (project : Project)
  | look (viewer : Viewer) (mailbox : Mailbox Nat) (frames : List (Nat × Stage)) (notes : List Note)
  | spawn
  | setFlag (raised : Bool)
  | run
  /-- The run of a handle begins, if it waits. -/
  | begin (h : Nat)
  | work (i : Nat)
  | conclude
  | drop (h : Nat)
  | stop
  | stopEngine
  | poke (id : String) (c : Change)

/-- What can happen, with the project in it as it is read. -/
def Happening.asRead : Happening → Happening
  | .edit project => .edit project.asRead
  | x => x

namespace Session

/-- **A session in which something happens.** A happening that has no place in this session, the
beginning of a run that does not wait, changes nothing. -/
def meet (s : Session) : Happening → Session
  | .arrange now jobs timers => { s with now, jobs, timers }
  | .edit project => { s with project }
  | .look viewer mailbox frames notes => { s with viewer, mailbox, frames, notes }
  | .spawn => s.spawn.1
  | .setFlag raised => (s.setFlag raised).1
  | .run => { s with stopped := false, reply? := none }.begin none s.project
  | .begin h =>
    match s.handles[h]? with
    | some (.waiting p) => s.begin (some h) p
    | _ => s
  | .work i => { s with engine := (s.engine.step i).1 }.hearAll (s.engine.step i).2
  | .conclude => s.conclude
  | .drop h => s.drop h
  | .stop => s.stop
  | .stopEngine => s.stopEngine
  | .poke id c => (s.poke id c).1

/-- A session in which things happen one after the other. -/
def meetAll (s : Session) (xs : List Happening) : Session := xs.foldl meet s

/-- **What can happen by name is what can happen.** So a list of happenings describes any order of
steps, and nothing is lost by speaking of them by name. -/
theorem exists_step_iff {s s' : Session} : (∃ incident, s.Step incident s') ↔ ∃ x, s.meet x = s' := by
  constructor
  · rintro ⟨incident, hstep⟩
    cases hstep with
    | arrange now jobs timers => exact ⟨.arrange now jobs timers, rfl⟩
    | edit project => exact ⟨.edit project, rfl⟩
    | look viewer mailbox frames notes => exact ⟨.look viewer mailbox frames notes, rfl⟩
    | spawn => exact ⟨.spawn, rfl⟩
    | setFlag raised => exact ⟨.setFlag raised, rfl⟩
    | run => exact ⟨.run, rfl⟩
    | @«begin» h p hwaiting =>
      refine ⟨.begin h, ?_⟩
      unfold meet
      dsimp only
      -- the run waits, so the happening of that name begins it
      rw [hwaiting]
    | work i => exact ⟨.work i, rfl⟩
    | conclude => exact ⟨.conclude, rfl⟩
    | drop h => exact ⟨.drop h, rfl⟩
    | stop => exact ⟨.stop, rfl⟩
    | stopEngine => exact ⟨.stopEngine, rfl⟩
    | poke id c => exact ⟨.poke id c, rfl⟩
  · rintro ⟨x, rfl⟩
    cases x with
    | arrange now jobs timers => exact ⟨_, .arrange now jobs timers⟩
    | edit project => exact ⟨_, .edit project⟩
    | look viewer mailbox frames notes => exact ⟨_, .look viewer mailbox frames notes⟩
    | spawn => exact ⟨_, .spawn⟩
    | setFlag raised => exact ⟨_, .setFlag raised⟩
    | run => exact ⟨_, .run⟩
    | «begin» h =>
      -- where nothing waits, nothing changes, and that can happen as well
      have hnone : ∃ incident, s.Step incident s := ⟨_, .arrange s.now s.jobs s.timers⟩
      unfold meet
      dsimp only
      cases hhandle : s.handles[h]? with
      | none => exact hnone
      | some handle =>
        cases handle with
        | waiting p => exact ⟨_, .begin hhandle⟩
        | playing | «over» | dropped => exact hnone
    | work i => exact ⟨_, .work i⟩
    | conclude => exact ⟨_, .conclude⟩
    | drop h => exact ⟨_, .drop h⟩
    | stop => exact ⟨_, .stop⟩
    | stopEngine => exact ⟨_, .stopEngine⟩
    | poke id c => exact ⟨_, .poke id c⟩

/-- Whatever happens to a session leaves it sound, since it is a step. -/
theorem Sound.meet {rep : Repertoire} {s : Session} (h : s.Sound rep) (x : Happening) :
    (s.meet x).Sound rep := by
  obtain ⟨incident, hstep⟩ := exists_step_iff.mpr ⟨x, rfl⟩
  exact h.step hstep

theorem Sound.meetAll {rep : Repertoire} {s : Session} (h : s.Sound rep) (xs : List Happening) :
    (s.meetAll xs).Sound rep := by
  induction xs generalizing s with
  | nil => exact h
  | cons x xs ih => exact ih (h.meet x)

end Session

/-! ### What a session does by itself -/

namespace Session

/-- **A session with all its programs as they are read.** -/
def asRead (s : Session) : Session :=
  { s with
    engine := s.engine.asRead
    project := s.project.asRead
    handles := s.handles.map Handle.asRead }

section Functions

variable (s : Session)

theorem getElem?_asRead (h : Nat) : s.asRead.handles[h]? = s.handles[h]?.map Handle.asRead :=
  List.getElem?_map

/-- What is heard is the same, and it is put where it was before; listening does not look at any
program. -/
theorem hearAll_asRead (signals : List Signal) :
    (s.hearAll signals).asRead = s.asRead.hearAll signals := by
  obtain ⟨frames, mailbox, notes, heq⟩ := s.hearAll_eq signals
  have hwith := s.hearAll_with signals s.engine.asRead s.jobs s.timers s.project.asRead s.flagRaised
    s.stopped (s.handles.map Handle.asRead) s.reply?
  have hasRead : s.asRead = { s with
      engine := s.engine.asRead
      project := s.project.asRead
      handles := s.handles.map Handle.asRead } := rfl
  rw [hasRead, hwith, heq]
  rfl

/-- What becomes of a handle is the same, whatever it becomes. -/
theorem setHandle_asRead (h : Nat) (handle : Handle) :
    { s with handles := s.handles.set h handle }.asRead =
      { s.asRead with handles := s.asRead.handles.set h handle.asRead } := by
  unfold asRead
  dsimp only
  rw [List.map_set]

theorem answer_asRead (asked : Option Nat) (result : Result) :
    (s.answer asked result).asRead = s.asRead.answer asked result := by
  cases asked with
  | none => rfl
  | some h => exact s.setHandle_asRead h (.over result)

theorem withChains_asRead (jobs : List Job) : s.asRead.withChains jobs = s.withChains jobs := by
  have hlength : s.asRead.engine.run?.elim 0 (fun r => r.chains.length) =
      s.engine.run?.elim 0 fun r => r.chains.length := by
    unfold asRead Engine.asRead
    dsimp only
    cases s.engine.run? with
    | none => rfl
    | some r => exact List.length_map _
  unfold withChains
  rw [hlength]
  rfl

/-- The handle whose run is going on is found at the same place: a handle plays as it is read just
when it plays. -/
theorem playing?_asRead : s.asRead.playing? = s.playing? := by
  unfold playing? asRead
  dsimp only
  rw [List.findIdx?_map]
  -- both search for a handle that plays, and reading a program does not make one play
  congr 1
  funext handle
  cases handle <;> rfl

/-- A run that begins, or is over at once, does the same to the session as it is read. The engine
answers the same (`Engine.start_asRead`), and the answer goes to the same handle. -/
theorem begin_asRead (asked : Option Nat) (p : Project) :
    (s.begin asked p).asRead = s.asRead.begin asked p.asRead := by
  have hstart := s.engine.start_asRead p s.now
  have hstart' : s.asRead.engine.start p.asRead s.asRead.now =
      ((s.engine.start p s.now).1.asRead, (s.engine.start p s.now).2) := hstart
  unfold begin
  rw [hstart']
  cases s.engine.start p s.now with
  | mk engine rest =>
    obtain ⟨signals, report?⟩ := rest
    have hheard := hearAll_asRead { s with engine } signals
    have hheard' : { s.asRead with engine := engine.asRead }.hearAll signals =
        (({ s with engine } : Session).hearAll signals).asRead := hheard.symm
    dsimp only
    rw [hheard']
    generalize ({ s with engine } : Session).hearAll signals = s₁
    cases report? with
    | some report => exact s₁.answer_asRead asked _
    | none =>
      dsimp only
      -- the run has begun, and it has as many chains to be put into the queue
      rw [show s₁.asRead.jobs = s₁.jobs from rfl, withChains_asRead]
      cases asked with
      | none => rfl
      | some h => exact setHandle_asRead { s₁ with jobs := s₁.withChains s₁.jobs } h .playing

theorem conclude_asRead : s.conclude.asRead = s.asRead.conclude := by
  have hconclude : s.asRead.engine.conclude = (s.engine.conclude.1.asRead, s.engine.conclude.2) :=
    s.engine.conclude_asRead
  unfold conclude
  rw [hconclude, playing?_asRead]
  cases s.engine.conclude with
  | mk engine rest =>
    obtain ⟨signals, result?⟩ := rest
    cases result? with
    | none => rfl
    | some result =>
      exact (answer_asRead _ _ _).trans
        (congrArg (fun s' : Session => s'.answer s.playing? result) (hearAll_asRead _ _))

/-- Dropping a run is the same, whichever state its handle is in. -/
theorem drop_asRead (h : Nat) : (s.drop h).asRead = s.asRead.drop h := by
  unfold drop
  rw [getElem?_asRead]
  cases hhandle : s.handles[h]? with
  | none => rfl
  | some handle =>
    cases handle with
    | waiting p => exact s.setHandle_asRead h .dropped
    | playing =>
      exact setHandle_asRead { s with
        engine := s.engine.abandon
        jobs := s.jobs.filter fun j => !Job.isOfRun j
        timers := [] } h .dropped
    | «over» | dropped => rfl

theorem spawn_asRead : s.spawn.1.asRead = s.asRead.spawn.1 := by
  unfold spawn asRead
  dsimp only
  rw [List.map_append, List.length_map]
  rfl

theorem setFlag_asRead (raised : Bool) : (s.setFlag raised).1.asRead = (s.asRead.setFlag raised).1 := by
  have hflag : s.asRead.flagRaised = s.flagRaised := rfl
  unfold setFlag
  rw [hflag]
  cases raised && !s.flagRaised with
  | false => rfl
  | true => exact spawn_asRead { s with flagRaised := raised }

/-- A stop wakes the same tasks: whether the run was called off before it, and whether it is so
after it, does not depend on how a number is written. -/
theorem stopEngine_asRead : s.stopEngine.asRead = s.asRead.stopEngine := by
  have hbefore : s.asRead.engine.isCalledOff = s.engine.isCalledOff := s.engine.isCalledOff_asRead
  have hafter : s.asRead.engine.stop.isCalledOff = s.engine.stop.isCalledOff :=
    s.engine.stop.isCalledOff_asRead
  unfold stopEngine
  dsimp only
  rw [hbefore, hafter]
  split <;> rfl

theorem stop_asRead : s.stop.asRead = s.asRead.stop :=
  stopEngine_asRead { s with stopped := true, flagRaised := false }

theorem poke_asRead (id : String) (c : Change) : (s.poke id c).1.asRead = (s.asRead.poke id c).1 := by
  have hpoke : s.asRead.engine.poke id c =
      ((s.engine.poke id c).1.asRead, (s.engine.poke id c).2) := s.engine.poke_asRead id c
  unfold poke
  rw [hpoke]
  exact hearAll_asRead _ _

theorem mustWait_asRead (c : Chain) : s.asRead.mustWait (c.recast Block.asRead) = s.mustWait c := by
  have hoff : s.asRead.engine.isCalledOff = s.engine.isCalledOff := s.engine.isCalledOff_asRead
  unfold mustWait
  rw [hoff]
  rfl

/-- The end of a chain leads on in the same way, to the next chain or to the look whether it was the
last one. -/
theorem afterChain_asRead (i : Nat) (c : Chain) :
    (s.afterChain i c).asRead = s.asRead.afterChain i (c.recast Block.asRead) := by
  have hnext : (s.asRead.engine.chain? (i + 1)).isSome = (s.engine.chain? (i + 1)).isSome := by
    rw [show s.asRead.engine.chain? (i + 1) = _ from s.engine.chain?_asRead (i + 1), Option.isSome_map]
  have hjobs : s.asRead.jobs = s.jobs := rfl
  have hscheduling : s.asRead.engine.scheduling = s.engine.scheduling := rfl
  unfold afterChain
  rw [hnext, hjobs, hscheduling, Chain.ending?_recast, ← conclude_asRead]
  -- either order of scheduling asks only how the chain has ended and whether there is a next one
  cases s.engine.scheduling with
  | sequential => dsimp only; split <;> rfl
  | concurrent => dsimp only; split <;> rfl

end Functions

section Alone

variable {rep : Repertoire} {s s' : Session}

/-- The work of a chain is the same, with what it shows and tells. This is the one place where a
program is performed. -/
theorem work_asRead (h : s.Sound rep) (hpart : rep.IsPartOf .builtin) (i : Nat) :
    (({ s with engine := (s.engine.step i).1 } : Session).hearAll (s.engine.step i).2).asRead =
      { s.asRead with engine := (s.asRead.engine.step i).1 }.hearAll (s.asRead.engine.step i).2 := by
  have hstep : s.asRead.engine.step i = ((s.engine.step i).1.asRead, (s.engine.step i).2) :=
    Engine.step_asRead h.engine hpart i
  rw [hstep]
  exact hearAll_asRead _ _

/-- A chain whose turn it is does the same on the program as it is read: it waits as long, has ended
just when it has, or takes the same step. -/
theorem moveChain_asRead (h : s.Sound rep) (hpart : rep.IsPartOf .builtin) (i : Nat)
    (jobs : List Job) : (s.moveChain i jobs).asRead = s.asRead.moveChain i jobs := by
  have hchain : s.asRead.engine.chain? i = (s.engine.chain? i).map (Chain.recast Block.asRead) :=
    s.engine.chain?_asRead i
  unfold moveChain
  rw [hchain]
  cases s.engine.chain? i with
  | none => rfl
  | some c =>
    dsimp only [Option.map_some]
    rw [mustWait_asRead]
    cases s.mustWait c with
    | some wake => rfl
    | none =>
      dsimp only
      rw [Chain.ending?_recast]
      split
      · exact afterChain_asRead { s with jobs } i c
      · exact work_asRead h hpart i

/-- The next piece of work is of the same kind, and does the same, since the jobs are the same ones.
-/
theorem move?_asRead (h : s.Sound rep) (hpart : rep.IsPartOf .builtin) :
    s.asRead.move? = s.move?.map asRead := by
  have hjobs : s.asRead.jobs = s.jobs := rfl
  unfold move?
  rw [hjobs]
  cases s.jobs with
  | nil => rfl
  | cons job jobs =>
    cases job with
    | «begin» k =>
      dsimp only
      rw [getElem?_asRead]
      cases s.handles[k]? with
      | none => rfl
      | some handle =>
        cases handle with
        -- a task that begins its run, unless it was dropped before it could
        | waiting p => exact congrArg some (begin_asRead { s with jobs } (some k) p).symm
        | playing | «over» | dropped => rfl
    | chain i => exact congrArg some (moveChain_asRead h hpart i jobs).symm
    | collect => exact congrArg some (conclude_asRead { s with jobs }).symm
    | drop k => exact congrArg some (drop_asRead { s with jobs } k).symm

/-- **What happens next** is the same, and at the same time: the same job, or the same timer if
there is none. -/
theorem next?_asRead (h : s.Sound rep) (hpart : rep.IsPartOf .builtin) (limit : Nat) :
    s.asRead.next? limit = (s.next? limit).map asRead := by
  unfold next?
  rw [move?_asRead h hpart, show s.asRead.wake? = s.wake? from rfl]
  cases s.move? with
  | some s₁ => rfl
  | none =>
    cases s.wake? with
    | none => rfl
    | some wake =>
      dsimp only [Option.map_none]
      split <;> rfl

/-- What happens by itself leaves a session sound, being made of steps. -/
theorem Sound.next? (h : s.Sound rep) {limit : Nat} (hnext : s.next? limit = some s') :
    s'.Sound rep := by
  obtain ⟨incidents, hsteps⟩ := leads_next? hnext
  exact h.steps hsteps

/-- **All that is due up to a time** is the same. The induction is on the fuel, and each thing that
happens is the same by `next?_asRead`, which leaves a sound session for the next one. -/
theorem drain_asRead (h : s.Sound rep) (hpart : rep.IsPartOf .builtin) (limit fuel : Nat) :
    drain limit fuel s.asRead = (drain limit fuel s).asRead := by
  induction fuel generalizing s with
  | zero => rfl
  | succ fuel ih =>
    unfold drain
    rw [next?_asRead h hpart]
    cases hnext : s.next? limit with
    | none => rfl
    | some s₁ => exact ih (h.next? hnext)

/-- Waiting for something to be so takes as long, if it is so of a session just when it is so of the
session as it is read. -/
theorem waitUntil_asRead (h : s.Sound rep) (hpart : rep.IsPartOf .builtin) (isSo : Session → Bool)
    (hisSo : ∀ s : Session, isSo s.asRead = isSo s) (fuel : Nat) :
    waitUntil isSo fuel s.asRead = (waitUntil isSo fuel s).asRead := by
  induction fuel generalizing s with
  | zero => rfl
  | succ fuel ih =>
    unfold waitUntil
    rw [next?_asRead h hpart, show s.asRead.now = s.now from rfl]
    cases hnext : s.next? s.now with
    | some s₁ => exact ih (h.next? hnext)
    | none =>
      dsimp only [Option.map_none]
      -- nothing is left to do now: it is so already, or time passes to the next timer
      rw [hisSo, show s.asRead.wake? = s.wake? from rfl]
      split
      · rfl
      · cases s.wake? with
        | none => rfl
        | some wake => exact ih (s := s.wakeAt wake) ⟨h.engine, h.playing, h.unique⟩

/-- **A run that the host waits for** has the same result, and leaves the same session behind, as it
is read. -/
theorem run_asRead (h : s.Sound rep) (hpart : rep.IsPartOf .builtin) :
    s.asRead.run = (s.run.1.asRead, s.run.2) := by
  have hasking : { s with stopped := false, reply? := none }.Sound rep :=
    ⟨h.engine, h.playing, h.unique⟩
  have hbegun := begin_asRead { s with stopped := false, reply? := none } none s.project
  have hwaited := waitUntil_asRead (hasking.begin none s.project) hpart
    (fun s => s.reply?.isSome) (fun _ => rfl) patience
  rw [hbegun] at hwaited
  exact congrArg (fun s' : Session => (s', s'.reply?)) hwaited

/-! ### What can happen in any order -/

/-- **Whatever happens** to a session leaves it as it is read where it would have come as it is
read. Each kind of happening has its lemma above. -/
theorem meet_asRead (h : s.Sound rep) (hpart : rep.IsPartOf .builtin) (x : Happening) :
    (s.meet x).asRead = s.asRead.meet x.asRead := by
  cases x with
  | arrange | edit | look => rfl
  | spawn => exact s.spawn_asRead
  | setFlag raised => exact s.setFlag_asRead raised
  | run => exact begin_asRead { s with stopped := false, reply? := none } none s.project
  | «begin» k =>
    unfold meet Happening.asRead
    dsimp only
    rw [getElem?_asRead]
    cases s.handles[k]? with
    | none => rfl
    | some handle =>
      cases handle with
      | waiting p => exact s.begin_asRead (some k) p
      | playing | «over» | dropped => rfl
  | work i => exact work_asRead h hpart i
  | conclude => exact s.conclude_asRead
  | drop k => exact s.drop_asRead k
  | stop => exact s.stop_asRead
  | stopEngine => exact s.stopEngine_asRead
  | poke id c => exact s.poke_asRead id c

/-- And so do any happenings one after the other. What comes after the first one starts from a
session that is sound again. -/
theorem meetAll_asRead (h : s.Sound rep) (hpart : rep.IsPartOf .builtin) (xs : List Happening) :
    (s.meetAll xs).asRead = s.asRead.meetAll (xs.map Happening.asRead) := by
  induction xs generalizing s with
  | nil => rfl
  | cons x xs ih =>
    -- the rest happens to both sessions after the same first happening
    have hrest := ih (h.meet x)
    rw [meet_asRead h hpart] at hrest
    exact hrest

end Alone

/-! ### What a host gets to see -/

/-- **Two sessions that tell the same**: the same frames at the same times, the same events and
notes, the same stage and those who watch it, the same operations, and the same of each run that was
asked for. Even what they have still to do is the same, up to the programs. -/
structure TellsAs (s t : Session) : Prop where
  now_eq : s.now = t.now
  frames_eq : s.frames = t.frames
  mailbox_eq : s.mailbox = t.mailbox
  notes_eq : s.notes = t.notes
  stage_eq : s.engine.stage = t.engine.stage
  viewer_eq : s.viewer = t.viewer
  operations_eq : s.engine.run?.map Run.operations = t.engine.run?.map Run.operations
  guard_eq : s.engine.guard = t.engine.guard
  result_eq : ∀ h, s.result? h = t.result? h
  finished_eq : ∀ h, s.isFinished h = t.isFinished h
  playing_eq : s.playing? = t.playing?
  reply_eq : s.reply? = t.reply?
  flags_eq : (s.flagRaised, s.stopped) = (t.flagRaised, t.stopped)
  jobs_eq : s.jobs = t.jobs
  timers_eq : s.timers = t.timers

theorem result?_asRead (s : Session) (h : Nat) : s.asRead.result? h = s.result? h := by
  unfold result?
  rw [getElem?_asRead]
  cases s.handles[h]? with
  | none => rfl
  | some handle => cases handle <;> rfl

theorem isFinished_asRead (s : Session) (h : Nat) : s.asRead.isFinished h = s.isFinished h := by
  unfold isFinished
  rw [getElem?_asRead]
  cases s.handles[h]? with
  | none => rfl
  | some handle => cases handle <;> rfl

theorem operations_asRead (s : Session) :
    s.asRead.engine.run?.map Run.operations = s.engine.run?.map Run.operations := by
  unfold asRead Engine.asRead
  dsimp only
  cases s.engine.run? <;> rfl

/-- Sessions that are equal as they are read tell the same. What a host gets to see is a field that
reading leaves alone, or was shown above to be left alone by it. -/
theorem tellsAs_of_asRead_eq {s t : Session} (h : s.asRead = t.asRead) : s.TellsAs t where
  now_eq := (congrArg (fun s : Session => s.now) h :)
  frames_eq := (congrArg (fun s : Session => s.frames) h :)
  mailbox_eq := (congrArg (fun s : Session => s.mailbox) h :)
  notes_eq := (congrArg (fun s : Session => s.notes) h :)
  stage_eq := (congrArg (fun s : Session => s.engine.stage) h :)
  viewer_eq := (congrArg (fun s : Session => s.viewer) h :)
  operations_eq := by rw [← s.operations_asRead, h, t.operations_asRead]
  guard_eq := (congrArg (fun s : Session => s.engine.guard) h :)
  result_eq k := by rw [← s.result?_asRead, h, t.result?_asRead]
  finished_eq k := by rw [← s.isFinished_asRead, h, t.isFinished_asRead]
  playing_eq := by rw [← s.playing?_asRead, h, t.playing?_asRead]
  reply_eq := (congrArg (fun s : Session => s.reply?) h :)
  flags_eq := (congrArg (fun s : Session => (s.flagRaised, s.stopped)) h :)
  jobs_eq := (congrArg (fun s : Session => s.jobs) h :)
  timers_eq := (congrArg (fun s : Session => s.timers) h :)

/-- **How numbers are written is never seen.** A host loads one of two lists of blocks that are read
alike, with the same actors and backdrop, into a session that knows no routines but those of the
language, whatever has happened there before. Whatever happens then, runs that begin, chains that have
their turns in any order, stops in between and runs that end, the two sessions tell the same; and when
they are left to themselves, or the host waits for a run, they go on to tell the same, and the run has
the same result. -/
theorem spelling_unseen {rep : Repertoire} (hpart : rep.IsPartOf .builtin) (interval : Duration)
    (scheduling : Scheduling) (past : List Happening) {bs bs' : List Block}
    (hblocks : BlocksReadAlike bs bs') (actors : List Actor) (backdrop : Option Backdrop)
    (xs : List Happening) :
    let before := (ofEngine (.fresh rep interval scheduling)).meetAll past
    let here := (before.load ⟨.ofBlocks bs, actors, backdrop⟩).meetAll xs
    let there := (before.load ⟨.ofBlocks bs', actors, backdrop⟩).meetAll xs
    here.TellsAs there ∧
      (∀ limit fuel, (drain limit fuel here).TellsAs (drain limit fuel there)) ∧
      here.run.1.TellsAs there.run.1 ∧ here.run.2 = there.run.2 := by
  intro before here there
  have hbefore : before.Sound rep := (Sound.ofEngine (.fresh interval scheduling)).meetAll past
  have hloading : ∀ p, (before.load p).Sound rep :=
    fun _ => ⟨hbefore.engine, hbefore.playing, hbefore.unique⟩
  have hhere : here.Sound rep := (hloading _).meetAll xs
  have hthere : there.Sound rep := (hloading _).meetAll xs
  have hproject : (⟨.ofBlocks bs, actors, backdrop⟩ : Project).asRead =
      (⟨.ofBlocks bs', actors, backdrop⟩ : Project).asRead :=
    congrArg (fun program => Project.mk program actors backdrop) (Program.asRead_congr hblocks)
  have hloaded : (before.load ⟨.ofBlocks bs, actors, backdrop⟩).asRead =
      (before.load ⟨.ofBlocks bs', actors, backdrop⟩).asRead :=
    congrArg (fun project => { before.asRead with project }) hproject
  -- numbers may just as well be read when the program is loaded, and then both are one session
  have heq : here.asRead = there.asRead := by
    rw [meetAll_asRead (hloading _) hpart, hloaded, ← meetAll_asRead (hloading _) hpart]
  have hrun : (here.run.1.asRead, here.run.2) = (there.run.1.asRead, there.run.2) := by
    rw [← run_asRead hhere hpart, heq, run_asRead hthere hpart]
  refine ⟨tellsAs_of_asRead_eq heq, fun limit fuel => tellsAs_of_asRead_eq ?_,
    tellsAs_of_asRead_eq (congrArg Prod.fst hrun :), (congrArg Prod.snd hrun :)⟩
  -- left to themselves, both go on as the one session that they are as they are read
  rw [← drain_asRead hhere hpart, heq, drain_asRead hthere hpart]

/-- Two rounds of a walk and then a rest, with all numbers written as numbers. -/
def sampleNumbers : List Block :=
  [⟨"cat", .start, .empty, [], some "twice", []⟩,
    ⟨"twice", .repeatCount, .insert .empty "times" (.number 2.0), ["walk"], some "rest", []⟩,
    ⟨"walk", .moveSteps, .insert .empty "steps" (.number 5.0), [], none, []⟩,
    ⟨"rest", .wait, .empty, [], none, []⟩]

/-- The same with texts: one with blanks around the number, one with an exponent. How long the rest
is to be is not written as a number, so it lasts as long as one without this argument. -/
def sampleTexts : List Block :=
  [⟨"cat", .start, .empty, [], some "twice", []⟩,
    ⟨"twice", .repeatCount, .insert .empty "times" (.text " 2\n"), ["walk"], some "rest", []⟩,
    ⟨"walk", .moveSteps, .insert .empty "steps" (.text "0.5e1"), [], none, []⟩,
    ⟨"rest", .wait, .insert .empty "seconds" (.text "soon"), [], none, []⟩]

/-- The two lists are read alike, block by block and argument by argument. -/
theorem sampleNumbers_readAlike : BlocksReadAlike sampleNumbers sampleTexts :=
  .cons (.intro (.refl _) .nil) <|
  .cons (.intro (.insert (.refl _) rfl (by decide +kernel)) .nil) <|
  .cons (.intro (.insert (.refl _) rfl (by decide +kernel)) .nil) <|
  .cons (.intro (.insert_unusable (.refl _) rfl rfl (by decide +kernel)) .nil) .nil

/-- A session tells the same of both lists, though their arguments differ: left to itself it
performs five operations, and the run is completed. -/
theorem sampleNumbers_unseen :
    let s := ofEngine (.fresh .builtin (.ofMillis 500) .sequential)
    let here := (s.load ⟨.ofBlocks sampleNumbers, [⟨"Cat", "Cat", "cat.png"⟩], none⟩).meetAll [.spawn]
    let there := (s.load ⟨.ofBlocks sampleTexts, [⟨"Cat", "Cat", "cat.png"⟩], none⟩).meetAll [.spawn]
    sampleNumbers.map Block.arguments ≠ sampleTexts.map Block.arguments ∧
      (drain 9000 200 here).result? 0 = some (.report ⟨.completed, 5⟩) ∧
      (drain 9000 200 here).TellsAs (drain 9000 200 there) := by
  intro s here there
  have hunseen := spelling_unseen (.refl .builtin) (.ofMillis 500) .sequential []
    sampleNumbers_readAlike [⟨"Cat", "Cat", "cat.png"⟩] none [.spawn]
  obtain ⟨-, hleft, -⟩ := hunseen
  exact ⟨by decide +kernel, by decide +kernel, hleft 9000 200⟩

end Session

end StagePlay
