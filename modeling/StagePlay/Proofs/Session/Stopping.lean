import StagePlay.Proofs.Engine.Stopping
import StagePlay.Session.Host

/-!
# What a stop of the host reaches

A host asks for a run and gets a handle, but the run itself begins only when its task has its first
turn. `Session.Step` is one thing that can happen in a session, a call of the host or a piece of work
of a task, and `Session.Steps` is any number of them in any order: a run begins some time after it was
asked for, chains have their turns early or late, and the host calls in between. What a session does
by itself is made of such steps (`Session.steps_next?`).

* `Session.Sound` holds of every session: one handle at most has a run that is going on, and the
  engine is performing that run.
* `Session.Reached` holds from the stop of a run that is going on until that run is over. Each step
  keeps it or ends the run, and shows nothing of it (`Session.Step.reached`).
* `Session.stop_heeded`: a stop reaches the run that is going on and no other one. A run that is yet
  to begin is not stopped by it; `Session.stop_before_begin` is such a run.
-/

namespace StagePlay

/-! ### Engines -/

/-- **An engine whose guard is held by the run that is going on**, or by none. The language does not
break a run down. This is what the session has to know of its engine to say whom a stop reaches. -/
structure Engine.Tidy (rep : Repertoire) (e : Engine) : Prop where
  /-- The repertoire is the one the engine was made with; nothing in a session registers a routine.
  -/
  repertoire_eq : e.repertoire = rep
  /-- Without a run, the guard is free for the next one. -/
  idle : e.run? = none → e.guard.held = false
  /-- A run that is there is the one the guard is held for, with the number it was begun under. -/
  performing : ∀ r, e.run? = some r → e.Performing r
  /-- With a repertoire out of the builtin ones, no chain of the run has broken down. -/
  unbroken : rep.IsPartOf .builtin → ∀ r, e.run? = some r →
    r.score.repertoire = rep ∧ ∀ c ∈ r.chains, c.ending? ≠ some .broken

namespace Engine.Tidy

variable {rep : Repertoire} {e : Engine}

/-- A new engine is tidy: it has no run, and a guard that nobody holds. -/
theorem fresh (interval : Duration) (scheduling : Scheduling) :
    (Engine.fresh rep interval scheduling).Tidy rep :=
  ⟨rfl, fun _ => rfl, fun _ h => (nomatch h), fun _ _ h => (nomatch h)⟩

/-- The guard is free exactly when no run is going on, so the host and the engine cannot disagree
about whether something is running. -/
theorem held_eq (h : e.Tidy rep) : e.guard.held = e.run?.isSome := by
  cases hrun : e.run? with
  | none => exact h.idle hrun
  | some r => exact (h.performing r hrun).held

/-- An engine that abandons its run is tidy, whatever the run was: the guard is let go of together
with it. -/
theorem abandon (h : e.Tidy rep) : e.abandon.Tidy rep :=
  ⟨h.repertoire_eq, fun _ => rfl, fun _ h => (nomatch h), fun _ _ h => (nomatch h)⟩

/-- Looking for the end of a run keeps an engine tidy: either nothing has changed, or the run is
abandoned. -/
theorem conclude (h : e.Tidy rep) : e.conclude.1.Tidy rep := by
  exact e.conclude_cases (motive := fun finale => finale.1.Tidy rep) h (fun _ _ _ => h.abandon)
    fun _ _ _ _ => h.abandon

/-- A stop keeps an engine tidy. It marks the guard as called off where a run is going on, and does
nothing at all to an idle engine. -/
theorem stop (h : e.Tidy rep) : e.stop.Tidy rep := by
  cases hrun : e.run? with
  | none =>
    -- nobody holds the guard, so there is nothing to call off
    have hstop : e.stop = e := by
      unfold Engine.stop Guard.stop
      rw [h.idle hrun]
      rfl
    rw [hstop]
    exact h
  | some r =>
    have hr := h.performing r hrun
    -- the run is untouched, and the guard it is held for is still held
    have hsome : e.stop.run? = some r := hr.stop.1.run_eq
    refine ⟨h.repertoire_eq, fun hnone => ?_, fun r' hr' => ?_, h.unbroken⟩
    · exact nomatch hsome.symm.trans hnone
    · obtain rfl := Option.some.inj (hsome.symm.trans hr')
      exact hr.stop.1

/-- Whoever changes a figure from outside leaves guard and run alone, and with them all that the
engine's tidiness is about. -/
theorem poke (h : e.Tidy rep) (id : String) (c : Change) : (e.poke id c).1.Tidy rep := by
  unfold Engine.poke
  split
  · refine ⟨h.repertoire_eq, h.idle, fun r hr => ?_, h.unbroken⟩
    have hperforming := h.performing r hr
    exact ⟨hperforming.run_eq, hperforming.held, hperforming.number_eq⟩
  · exact h

/-- A step of a chain keeps an engine tidy. That no chain breaks down is an account of the run
(`Run.account_unbroken`), taken here for a single step. -/
theorem step (h : e.Tidy rep) (i : Nat) : (e.step i).1.Tidy rep := by
  cases hrun : e.run? with
  | none =>
    -- there is no run, so there is no chain to take a step
    have hstep : (e.step i).1 = e := by
      unfold Engine.step
      rw [hrun]
    rw [hstep]
    exact h
  | some r =>
    have hafter := ((h.performing r hrun).step i).1
    refine ⟨?_, fun hnone => ?_, fun r' hr' => ?_, fun hpart r' hr' => ?_⟩
    · rw [(h.performing r hrun).step_eq]
      exact h.repertoire_eq
    · exact nomatch hafter.run_eq.symm.trans hnone
    · obtain rfl := Option.some.inj (hafter.run_eq.symm.trans hr')
      exact hafter
    · obtain rfl := Option.some.inj (hafter.run_eq.symm.trans hr')
      -- the account of unbroken chains, begun at the chains as they are
      obtain ⟨hrep, hunbroken⟩ := h.unbroken hpart r hrun
      have hpart' : r.score.repertoire.IsPartOf .builtin := hrep ▸ hpart
      have hkept := @Run.Account.chain _ (Run.account_unbroken hpart') r e.stage.stage
        e.guard.calledOff [] [] i ⟨rfl, hunbroken⟩
      exact ⟨(congrArg Score.repertoire hkept.1).trans hrep, hkept.2⟩

/-- Asking for a run keeps an engine tidy, in each of the three ways it can go: the request is
ignored, there is nothing to start, or a run begins with all its chains in good order. -/
theorem start (h : e.Tidy rep) (p : Project) (clock : Nat) : (e.start p clock).1.Tidy rep := by
  cases hrun : e.run? with
  | some r =>
    -- a run is going on, and whoever asks is turned away
    rw [(h.performing r hrun).start_eq]
    exact h
  | none =>
    have hidle := h.idle hrun
    by_cases hstarts : p.program.starts = []
    -- the guard is let go of again before anything begins
    · rw [start_of_idle_of_nothing hidle p clock hstarts]
      refine ⟨h.repertoire_eq, fun _ => rfl, fun r hr => ?_, fun _ r hr => ?_⟩
      · exact nomatch hrun.symm.trans hr
      · exact nomatch hrun.symm.trans hr
    · have hbegun := performing_start hidle p clock hstarts
      refine ⟨?_, fun hnone => ?_, fun r hr => ?_, fun hpart r hr => ?_⟩
      · rw [start_of_idle hidle p clock hstarts]
        exact h.repertoire_eq
      · exact nomatch hbegun.run_eq.symm.trans hnone
      · obtain rfl := Option.some.inj (hbegun.run_eq.symm.trans hr)
        exact hbegun
      · obtain rfl := Option.some.inj (hbegun.run_eq.symm.trans hr)
        refine ⟨h.repertoire_eq, fun c hc => ?_⟩
        -- every chain of a new run walks, at its own start block
        obtain ⟨b, -, rfl⟩ := List.mem_map.mp hc
        exact nofun

end Engine.Tidy

/-- A run that is called off is reported stopped if it ends, or it broke down. It cannot be
completed any more, even if every chain of it was done before the stop came. -/
theorem Run.result?_true (r : Run) :
    r.result? true = none ∨ r.result? true = some .broken ∨
      r.result? true = some (.report ⟨.stopped, r.operations⟩) := by
  unfold result?
  -- sequential: all chains completed, or the first that is not has not ended, broke down or was
  -- cancelled
  split
  · split
    · exact Or.inr (Or.inr rfl)
    -- concurrent: all chains have ended, or one has not
    · split
      · exact Or.inl rfl
      · exact Or.inr (Or.inl rfl)
      · exact Or.inr (Or.inr rfl)
  · split
    · exact Or.inr (Or.inr rfl)
    · exact Or.inl rfl

/-- A run that is called off sends nothing, wherever its chains are. Each of them looks at the flag
before it does anything else. -/
theorem Run.signals_step_true (r : Run) (s : Stage) (i : Nat) : (r.step true s i).2.2 = [] :=
  r.step_cases true s i (motive := fun after _ => after.2.2 = []) (fun _ => rfl)
    fun _ c _ _ _ _ _ _ => congrArg Prod.snd (c.step_of_cancelled rfl)

/-- Whoever changes a figure leaves the guard and the run alone, whether or not there is such a
figure. -/
theorem Engine.poke_alone (e : Engine) (id : String) (c : Change) :
    (e.poke id c).1.guard = e.guard ∧ (e.poke id c).1.run? = e.run? := by
  unfold poke
  split <;> exact ⟨rfl, rfl⟩

/-! ### Steps of a session -/

/-- **What a step of a session was**: the work of a chain, with the signals that it sent, or
anything else. Only the former can show something of a run that is going on. -/
inductive Incident where
  | worked (signals : List Signal)
  | other

/-- Whether the run of a handle is over or was dropped. Such a handle never changes again
(`Session.Step.final`). -/
def Handle.isFinal : Handle → Bool
  | .over _ | .dropped => true
  | .waiting _ | .playing => false

namespace Session

/-- **One thing that can happen in a session.** A session's own schedule is one order of such steps
among many (`Session.leads_next?`); what is shown here of all of them does not depend on when the
runtime lets which task run. -/
inductive Step (s : Session) : Incident → Session → Prop where
  /-- Time passes, and tasks change places. -/
  | arrange (now : Nat) (jobs : List Job) (timers : List Timer) :
      Step s .other { s with now, jobs, timers }
  /-- The host edits the project. -/
  | edit (project : Project) : Step s .other { s with project }
  /-- The host looks at what was shown and sent, and takes it away. -/
  | look (viewer : Viewer) (mailbox : Mailbox Nat) (frames : List (Nat × Stage))
      (notes : List Note) : Step s .other { s with viewer, mailbox, frames, notes }
  /-- The host asks for a run. -/
  | spawn : Step s .other s.spawn.1
  /-- The host raises or lowers the flag. -/
  | setFlag (raised : Bool) : Step s .other (s.setFlag raised).1
  /-- The host asks for a run and waits for it. -/
  | run : Step s .other ({ s with stopped := false, reply? := none }.begin none s.project)
  /-- A run that was asked for begins. -/
  | begin {h : Nat} {p : Project} (hwaiting : s.handles[h]? = some (.waiting p)) :
      Step s .other (s.begin (some h) p)
  /-- A chain of the run that is going on takes a step, if its turn has come. -/
  | work (i : Nat) :
      Step s (.worked (s.engine.step i).2)
        ({ s with engine := (s.engine.step i).1 }.hearAll (s.engine.step i).2)
  /-- The run that is going on ends, if its chains have. -/
  | conclude : Step s .other s.conclude
  /-- A run is dropped. -/
  | drop (h : Nat) : Step s .other (s.drop h)
  /-- The host stops. -/
  | stop : Step s .other s.stop
  /-- Someone stops the engine alone. -/
  | stopEngine : Step s .other s.stopEngine
  /-- Someone else changes a figure. -/
  | poke (id : String) (c : Change) : Step s .other (s.poke id c).1

/-- **Things that happen in a session in any order**, the last one last, with what each of them was.
-/
inductive Steps (s : Session) : List Incident → Session → Prop where
  | refl : Steps s [] s
  | step {incidents : List Incident} {s' s'' : Session} {incident : Incident}
      (hsteps : Steps s incidents s') (hstep : s'.Step incident s'') :
      Steps s (incidents ++ [incident]) s''

/-! ### What is heard changes nothing -/

/-- What is heard changes nothing but what was heard: the frames, the mailbox and the notes. Every
other field can be read off the session as it was before. -/
theorem hearAll_eq (s : Session) (signals : List Signal) :
    ∃ frames mailbox notes, s.hearAll signals = { s with frames, mailbox, notes } := by
  unfold hearAll
  induction signals generalizing s with
  | nil => exact ⟨_, _, _, rfl⟩
  | cons signal signals ih =>
    obtain ⟨frames, mailbox, notes, heq⟩ := ih (s.hear signal)
    refine ⟨frames, mailbox, notes, ?_⟩
    rw [List.foldl_cons, heq]
    -- each kind of signal goes into one of the three places
    cases signal <;> rfl

/-- The engine does not change by being listened to. -/
@[simp] theorem engine_hearAll (s : Session) (signals : List Signal) :
    (s.hearAll signals).engine = s.engine := by
  obtain ⟨frames, mailbox, notes, heq⟩ := s.hearAll_eq signals
  rw [heq]

/-- Neither do the handles of the runs that were asked for. -/
@[simp] theorem handles_hearAll (s : Session) (signals : List Signal) :
    (s.hearAll signals).handles = s.handles := by
  obtain ⟨frames, mailbox, notes, heq⟩ := s.hearAll_eq signals
  rw [heq]

/-- What is heard does not depend on anything else. So the fields that a call sets may be set before
the signals are heard or after it, and the session comes out the same. -/
theorem hearAll_with (s : Session) (signals : List Signal) (engine : Engine) (jobs : List Job)
    (timers : List Timer) (project : Project) (flagRaised stopped : Bool) (handles : List Handle)
    (reply? : Option Result) :
    { s with engine, jobs, timers, project, flagRaised, stopped, handles, reply? }.hearAll signals =
      { s.hearAll signals with
        engine, jobs, timers, project, flagRaised, stopped, handles, reply? } := by
  unfold hearAll
  induction signals generalizing s with
  | nil => rfl
  | cons signal signals ih =>
    rw [List.foldl_cons, List.foldl_cons, ← ih]
    cases signal <;> rfl

/-! ### The engine and the handles after a step -/

section After

variable (s : Session)

/-- Answering whoever asked for a run does not touch the engine. -/
theorem engine_answer (asked : Option Nat) (result : Result) :
    (s.answer asked result).engine = s.engine := by
  cases asked <;> rfl

/-- A stop of the engine wakes those who wait, and leaves the rest of the session as it is. Which
tasks are woken is a matter of jobs and timers alone. -/
theorem stopEngine_eq :
    ∃ jobs timers, s.stopEngine = { s with engine := s.engine.stop, jobs, timers } := by
  unfold stopEngine
  dsimp only
  split <;> exact ⟨_, _, rfl⟩

theorem engine_stopEngine : s.stopEngine.engine = s.engine.stop := by
  obtain ⟨jobs, timers, heq⟩ := s.stopEngine_eq
  rw [heq]

theorem handles_stopEngine : s.stopEngine.handles = s.handles := by
  obtain ⟨jobs, timers, heq⟩ := s.stopEngine_eq
  rw [heq]

theorem engine_stop : s.stop.engine = s.engine.stop := engine_stopEngine _

theorem handles_stop : s.stop.handles = s.handles := handles_stopEngine _

theorem engine_poke (id : String) (c : Change) :
    (s.poke id c).1.engine = (s.engine.poke id c).1 :=
  engine_hearAll { s with engine := (s.engine.poke id c).1 } _

theorem handles_poke (id : String) (c : Change) : (s.poke id c).1.handles = s.handles :=
  handles_hearAll { s with engine := (s.engine.poke id c).1 } _

/-- **The flag asks for a run** when it goes up. Raised again while it is up, or lowered, it only
takes its new value; the edge is what counts. -/
theorem setFlag_cases (raised : Bool) {motive : Session → Prop}
    (rises : raised = true → s.flagRaised = false →
      motive ({ s with flagRaised := raised } : Session).spawn.1)
    (stays : motive { s with flagRaised := raised }) : motive (s.setFlag raised).1 := by
  unfold setFlag
  cases hrising : raised && !s.flagRaised with
  | true =>
    obtain ⟨hraised, hlow⟩ := (Bool.and_eq_true _ _).mp hrising
    exact rises hraised ((Bool.not_eq_true' _).mp hlow)
  | false => exact stays

theorem engine_setFlag (raised : Bool) : (s.setFlag raised).1.engine = s.engine :=
  s.setFlag_cases raised (motive := fun t => t.engine = s.engine) (fun _ _ => rfl) rfl

/-- The handles that are there stay where they are when another run is asked for, since the new one
is put behind them. -/
theorem handles_spawn {k : Nat} {handle : Handle} (hhandle : s.handles[k]? = some handle) :
    s.spawn.1.handles[k]? = some handle := by
  rw [spawn, List.getElem?_append_left (List.getElem?_eq_some_iff.mp hhandle).1, hhandle]

/-- The handles after one of them is set, in the form in which `begin`, `conclude` and `answer` use
it. A handle that does not exist is not set. -/
theorem handles_set (handle : Handle) (h k : Nat) :
    (s.handles.set h handle)[k]? =
      if some h = some k ∧ k < s.handles.length then some handle else s.handles[k]? := by
  rw [List.getElem?_set]
  by_cases hk : h = k
  · subst hk
    by_cases hlt : h < s.handles.length
    · simp only [if_true, hlt, and_self]
    · rw [if_pos rfl, if_neg hlt, if_neg fun hboth => hlt hboth.2]
      exact (List.getElem?_eq_none (Nat.not_lt.mp hlt)).symm
  · rw [if_neg hk, if_neg fun hboth => hk (Option.some.inj hboth.1)]

/-- The handles after an answer: the one that asked, if it was a handle, has its result, and all
others are as they were. -/
theorem handles_answer (asked : Option Nat) (result : Result) (k : Nat) :
    (s.answer asked result).handles[k]? =
      if asked = some k ∧ k < s.handles.length then some (.over result) else s.handles[k]? := by
  cases asked with
  | none => rw [if_neg fun hboth => nomatch hboth.1]; rfl
  | some h => exact s.handles_set (.over result) h k

/-- What a handle becomes when its run begins: playing, or over at once, if the engine was busy or
there was nothing to start. -/
def beginning (p : Project) : Handle :=
  match (s.engine.start p s.now).2.2 with
  | some report => .over (.report report)
  | none => .playing

/-- The engine after a run begins is the engine that was asked to start it, whoever asked and
whatever the answer was. -/
theorem engine_begin (asked : Option Nat) (p : Project) :
    (s.begin asked p).engine = (s.engine.start p s.now).1 := by
  unfold begin
  cases hstart : s.engine.start p s.now with
  | mk engine rest =>
    obtain ⟨signals, report?⟩ := rest
    cases report? with
    | some report =>
      dsimp only
      rw [engine_answer, engine_hearAll]
    | none => cases asked <;> simp only [engine_hearAll]

/-- The handles after a run begins: only the one that asked for it has changed, into
`Session.beginning`. -/
theorem handles_begin (asked : Option Nat) (p : Project) (k : Nat) :
    (s.begin asked p).handles[k]? =
      if asked = some k ∧ k < s.handles.length then some (s.beginning p) else s.handles[k]? := by
  unfold begin beginning
  cases hstart : s.engine.start p s.now with
  | mk engine rest =>
    obtain ⟨signals, report?⟩ := rest
    cases report? with
    | some report =>
      dsimp only
      -- over at once, with the engine's report
      rw [handles_answer, handles_hearAll]
    | none =>
      dsimp only
      cases asked with
      | none =>
        -- the run has begun; if no handle asked for it, the caller itself is waiting
        rw [if_neg fun hboth => nomatch hboth.1]
        simp only [handles_hearAll]
      | some h =>
        simp only [handles_hearAll]
        exact s.handles_set .playing h k

/-- A run that has not ended leaves the session as it is: nothing is heard, and nobody is answered.
-/
theorem conclude_of_none (h : s.engine.conclude.2.2 = none) : s.conclude = s := by
  unfold conclude
  rw [s.engine.conclude_of_none h]

/-- **The end of a run** is heard, and whoever asked for the run is answered. -/
theorem conclude_of_some {result : Result} (h : s.engine.conclude.2.2 = some result) :
    s.conclude =
      ({ s with engine := s.engine.conclude.1 }.hearAll s.engine.conclude.2.1).answer s.playing?
        result := by
  unfold conclude
  rcases hconclude : s.engine.conclude with ⟨engine, signals, result?⟩
  rw [hconclude] at h
  obtain rfl : result? = some result := h
  rfl

/-- The engine of a session that looked for the end of its run is the engine that did. -/
theorem engine_conclude : s.conclude.engine = s.engine.conclude.1 := by
  cases hresult : s.engine.conclude.2.2 with
  | none => rw [s.conclude_of_none hresult, s.engine.conclude_of_none hresult]
  | some result => rw [s.conclude_of_some hresult, engine_answer, engine_hearAll]

/-- The handles after the session looked for the end of its run: if there is a result, it goes to
the handle whose run is playing, and to no other. -/
theorem handles_conclude (k : Nat) :
    s.conclude.handles[k]? = match s.engine.conclude.2.2 with
      | none => s.handles[k]?
      | some result =>
        if s.playing? = some k ∧ k < s.handles.length then some (.over result)
          else s.handles[k]? := by
  cases hresult : s.engine.conclude.2.2 with
  | none => rw [s.conclude_of_none hresult]
  | some result => rw [s.conclude_of_some hresult, handles_answer, handles_hearAll]

/-- **A run can be dropped** while it waits or goes on, and no other handle has to do with it. One
that is over is left as it is, so its result can still be asked for. -/
theorem handles_drop (h : Nat) {k : Nat} {handle : Handle} (hhandle : s.handles[k]? = some handle) :
    (s.drop h).handles[k]? = some handle ∨
      h = k ∧ handle.isFinal = false ∧ (s.drop h).handles[k]? = some .dropped := by
  -- a handle that waits or plays is set to dropped: either it is this one, or this one is not
  -- concerned
  have hset : ∀ {handle' : Handle}, s.handles[h]? = some handle' → handle'.isFinal = false →
      (s.handles.set h .dropped)[k]? = some handle ∨
        h = k ∧ handle.isFinal = false ∧ (s.handles.set h .dropped)[k]? = some .dropped := by
    intro handle' hhandle' hgoing
    rw [handles_set]
    split
    · next hboth =>
      obtain rfl := Option.some.inj hboth.1
      obtain rfl := Option.some.inj (hhandle.symm.trans hhandle')
      exact Or.inr ⟨rfl, hgoing, rfl⟩
    · exact Or.inl hhandle
  unfold drop
  split
  · next hwaiting => exact hset hwaiting rfl
  · next hplaying => exact hset hplaying rfl
  · exact Or.inl hhandle

/-- The handle whose run is going on, if there is one, is one that says so; it is found by searching
the handles for it. -/
theorem playing?_eq_some {k : Nat} (hk : s.playing? = some k) :
    s.handles[k]? = some .playing := by
  obtain ⟨hlt, hplaying, -⟩ := List.findIdx?_eq_some_iff_getElem.mp hk
  rw [List.getElem?_eq_getElem hlt]
  split at hplaying
  · next heq => rw [heq]
  · exact nomatch hplaying

/-- And if there is a handle that says so, one is found. -/
theorem playing?_isSome {k : Nat} (hk : s.handles[k]? = some .playing) : s.playing?.isSome := by
  unfold playing?
  rw [List.findIdx?_isSome, List.any_eq_true]
  exact ⟨.playing, List.mem_of_getElem? hk, rfl⟩

end After

/-! ### The invariant -/

/-- **What holds of every session**: the engine is tidy, and one handle at most has a run that is
going on, which is the run of the engine. A run whose caller waits for it himself has no handle, so
the converse does not hold. -/
structure Sound (rep : Repertoire) (s : Session) : Prop where
  /-- The engine is tidy. -/
  engine : s.engine.Tidy rep
  /-- A handle that plays is a handle on the engine's run, so there is one. -/
  playing : ∀ h : Nat, s.handles[h]? = some .playing → s.engine.run?.isSome
  /-- Two handles that play are one. -/
  unique : ∀ h h' : Nat, s.handles[h]? = some .playing → s.handles[h']? = some .playing → h = h'

section Invariant

variable {rep : Repertoire} {s s' : Session} {incident : Incident}

/-- A new session is sound: it has no handles yet. -/
theorem Sound.ofEngine {e : Engine} (he : e.Tidy rep) : (ofEngine e).Sound rep :=
  ⟨he, fun _ h => (nomatch h), fun _ _ h => (nomatch h)⟩

/-- **A step that leaves the run to the engine**, and begins and ends nothing. Most steps are of
this kind, and are dealt with by showing that no handle comes to play that did not play before. -/
theorem Sound.quiet (h : s.Sound rep) (hengine : s'.engine.Tidy rep)
    (hrun : s.engine.run?.isSome → s'.engine.run?.isSome)
    (hhandles : ∀ k : Nat, s'.handles[k]? = some .playing → s.handles[k]? = some .playing) :
    s'.Sound rep where
  engine := hengine
  playing k hk := hrun (h.playing k (hhandles k hk))
  unique k k' hk hk' := h.unique k k' (hhandles k hk) (hhandles k' hk')

/-- While no run is going on, no handle says that one is. This is how a handle that is left playing
by a run that is over would be noticed. -/
theorem Sound.not_playing (h : s.Sound rep) (hrun : s.engine.run? = none) (k : Nat) :
    s.handles[k]? ≠ some .playing := by
  intro hk
  have hsome := h.playing k hk
  rw [hrun] at hsome
  exact Bool.false_ne_true hsome

/-- **A run that is asked for** begins where no other one is going on, and is over at once
otherwise. Only in the first case a handle comes to play, and then it is the only one. -/
theorem Sound.begin (h : s.Sound rep) (asked : Option Nat) (p : Project) :
    (s.begin asked p).Sound rep := by
  have hengine : (s.begin asked p).engine.Tidy rep := by
    rw [engine_begin]
    exact h.engine.start p s.now
  have hhandles := s.handles_begin asked p
  cases hrun : s.engine.run? with
  | some r =>
    -- busy: the handle is over with `ignored`, and the run that is going on stays who it was
    have hstart := (h.engine.performing r hrun).start_eq p s.now
    refine h.quiet hengine (fun hsome => ?_) fun k hk => ?_
    · rw [engine_begin, hstart]
      exact hsome
    · rw [hhandles, beginning, hstart] at hk
      split at hk
      · exact nomatch hk
      · exact hk
  | none =>
    have hidle := h.engine.idle hrun
    by_cases hstarts : p.program.starts = []
    -- nothing to start: the handle is over at once here too
    · have hstart := Engine.start_of_idle_of_nothing hidle p s.now hstarts
      refine h.quiet hengine (fun hsome => ?_) fun k hk => ?_
      · rw [engine_begin, hstart]
        exact hsome
      · rw [hhandles, beginning, hstart] at hk
        split at hk
        · exact nomatch hk
        · exact hk
    · have hbegun := Engine.performing_start hidle p s.now hstarts
      -- the handle that asked for the run is the only one that can be playing
      have hasked : ∀ k : Nat, (s.begin asked p).handles[k]? = some .playing → asked = some k := by
        intro k hk
        rw [hhandles] at hk
        split at hk
        · next hboth => exact hboth.1
        · exact absurd hk (h.not_playing hrun k)
      refine ⟨hengine, fun k _ => ?_, fun k k' hk hk' => ?_⟩
      · rw [engine_begin, hbegun.run_eq]
        rfl
      · exact Option.some.inj ((hasked k hk).symm.trans (hasked k' hk'))

/-- The end of a run keeps a session sound. The handle whose run was going on has its result, and as
it was the only one, none is left playing. -/
theorem Sound.conclude (h : s.Sound rep) : s.conclude.Sound rep := by
  have hengine : s.conclude.engine.Tidy rep := by
    rw [engine_conclude]
    exact h.engine.conclude
  have hhandles := s.handles_conclude
  cases hresult : s.engine.conclude.2.2 with
  | none =>
    -- the run goes on, and nothing has changed
    refine h.quiet hengine (fun hsome => ?_) fun k hk => ?_
    · rw [engine_conclude, s.engine.conclude_of_none hresult]
      exact hsome
    · rwa [hhandles, hresult] at hk
  | some result =>
    -- the handle whose run was going on has its result
    have hnobody : ∀ k : Nat, s.conclude.handles[k]? ≠ some .playing := by
      intro k hk
      rw [hhandles, hresult] at hk
      dsimp only at hk
      split at hk
      · exact nomatch hk
      -- a handle that still plays would be the one that was answered
      · next hnot =>
        obtain ⟨k', hk'⟩ := Option.isSome_iff_exists.mp (s.playing?_isSome hk)
        obtain rfl := h.unique k k' hk (s.playing?_eq_some hk')
        exact hnot ⟨hk', (List.getElem?_eq_some_iff.mp hk).1⟩
    exact ⟨hengine, fun k hk => absurd hk (hnobody k), fun k _ hk => absurd hk (hnobody k)⟩

/-- Dropping a run keeps a session sound: the engine's run is abandoned together with the handle
that played it, and a run that was still waiting never begins. -/
theorem Sound.drop (h : s.Sound rep) (k : Nat) : (s.drop k).Sound rep := by
  unfold Session.drop
  split
  -- it was waiting: the engine knows nothing of it
  · refine h.quiet h.engine id fun k' hk' => ?_
    rw [handles_set] at hk'
    split at hk'
    · exact nomatch hk'
    -- it is over, was dropped before, or never was: nothing happens
    · exact hk'
  · next hplaying =>
    -- it was going on: the engine lets go of it, and no other handle was playing
    have hnobody : ∀ k' : Nat, (s.handles.set k .dropped)[k']? ≠ some .playing := by
      intro k' hk'
      rw [handles_set] at hk'
      split at hk'
      · exact nomatch hk'
      · next hnot =>
        obtain rfl := h.unique k k' hplaying hk'
        exact hnot ⟨rfl, (List.getElem?_eq_some_iff.mp hk').1⟩
    exact ⟨h.engine.abandon, fun k' hk' => absurd hk' (hnobody k'),
      fun k' _ hk' => absurd hk' (hnobody k')⟩
  · exact h

/-- Another request for a run keeps a session sound. The new handle waits behind the others, and the
engine hears of it only when the task has its first turn. -/
theorem Sound.spawn (h : s.Sound rep) : s.spawn.1.Sound rep := by
  refine h.quiet h.engine id fun k hk => ?_
  change (s.handles ++ [.waiting s.project])[k]? = _ at hk
  rcases Nat.lt_or_ge k s.handles.length with hlt | hge
  · rwa [List.getElem?_append_left hlt] at hk
  · rw [List.getElem?_append_right hge] at hk
    exact nomatch List.mem_singleton.mp (List.mem_of_getElem? hk)

/-- A stop of the engine keeps a session sound: the run is called off but goes on, and its handle
still plays until the chains have noticed. -/
theorem Sound.stopEngine (h : s.Sound rep) : s.stopEngine.Sound rep := by
  refine h.quiet ?_ (fun hsome => ?_) fun k hk => ?_
  · rw [engine_stopEngine]
    exact h.engine.stop
  · rw [engine_stopEngine]
    exact hsome
  · rwa [handles_stopEngine] at hk

/-- A change of a figure from outside keeps a session sound. It shows a frame, but it concerns
neither run nor handles. -/
theorem Sound.poke (h : s.Sound rep) (id : String) (c : Change) : (s.poke id c).1.Sound rep := by
  refine h.quiet ?_ (fun hsome => ?_) fun k hk => ?_
  · rw [engine_poke]
    exact h.engine.poke id c
  · rw [engine_poke, (s.engine.poke_alone id c).2]
    exact hsome
  · rwa [handles_poke] at hk

/-- A chain that takes a step leaves the run going on, even if it was the last one: the end of the
run is a step of its own. -/
theorem Sound.work (h : s.Sound rep) (i : Nat) :
    ({ s with engine := (s.engine.step i).1 }.hearAll (s.engine.step i).2).Sound rep := by
  refine h.quiet ?_ (fun hsome => ?_) fun k hk => ?_
  · rw [engine_hearAll]
    exact h.engine.step i
  · obtain ⟨r, hr⟩ := Option.isSome_iff_exists.mp hsome
    rw [engine_hearAll]
    dsimp only
    rw [((h.engine.performing r hr).step i).1.run_eq]
    rfl
  · rwa [handles_hearAll] at hk

/-- **Every step of a session** keeps it sound. Steps that do not touch engine and handles keep it
by its own fields; each of the others has its lemma above. -/
theorem Sound.step (h : s.Sound rep) (hstep : s.Step incident s') : s'.Sound rep := by
  cases hstep with
  | arrange | edit | look => exact ⟨h.engine, h.playing, h.unique⟩
  | spawn => exact h.spawn
  | setFlag raised =>
    -- the flag itself is no part of the invariant; where it rises, a run is asked for
    have hflag : { s with flagRaised := raised }.Sound rep := ⟨h.engine, h.playing, h.unique⟩
    exact s.setFlag_cases raised (motive := fun t => t.Sound rep) (fun _ _ => hflag.spawn) hflag
  | run =>
    have hasking : { s with stopped := false, reply? := none }.Sound rep :=
      ⟨h.engine, h.playing, h.unique⟩
    exact hasking.begin none s.project
  | begin => exact h.begin _ _
  | work i => exact h.work i
  | conclude => exact h.conclude
  | drop k => exact h.drop k
  | stop =>
    have hstopped : { s with stopped := true, flagRaised := false }.Sound rep :=
      ⟨h.engine, h.playing, h.unique⟩
    exact hstopped.stopEngine
  | stopEngine => exact h.stopEngine
  | poke id c => exact h.poke id c

/-- And so do any steps, by induction on them. -/
theorem Sound.steps (h : s.Sound rep) {incidents : List Incident} (hsteps : s.Steps incidents s') :
    s'.Sound rep := by
  induction hsteps with
  | refl => exact h
  | step _ hstep ih => exact ih.step hstep

end Invariant

/-! ### After a stop -/

section Reached

variable {rep : Repertoire} {s s' : Session} {incident : Incident} {h : Nat}

/-- What a run that is called off can come to: it is reported stopped, or it breaks down, which the
language does not make it do. -/
def IsHalted (rep : Repertoire) (result : Result) : Prop :=
  (∃ n, result = .report ⟨.stopped, n⟩) ∨ result = .broken ∧ ¬rep.IsPartOf .builtin

/-- **A session whose run is called off**, and the handle of this run. It is the invariant of all
that happens between a stop and the end of the run it reached. -/
structure Reached (rep : Repertoire) (h : Nat) (s : Session) : Prop extends s.Sound rep where
  /-- The run is still going on. -/
  handle : s.handles[h]? = some .playing
  /-- It has been called off, and the guard says so until it is over. -/
  calledOff : s.engine.guard.calledOff = true

/-- **The result of a run that is called off.** There are three things `Run.result?_true` allows: it
has none yet, it broke down or it was stopped. The second is excluded where the repertoire is a
builtin one. -/
theorem Reached.isHalted (hreached : s.Reached rep h) {result : Result}
    (hresult : s.engine.conclude.2.2 = some result) : IsHalted rep result := by
  obtain ⟨r, hr⟩ := Option.isSome_iff_exists.mp (hreached.playing h hreached.handle)
  have hperforming := hreached.engine.performing r hr
  rw [hperforming.conclude_eq.2.2, hreached.calledOff] at hresult
  rcases r.result?_true with hnone | hbroken | hstopped
  · exact nomatch hresult.symm.trans hnone
  · obtain rfl := Option.some.inj (hresult.symm.trans hbroken)
    -- no chain of this run has broken down, so the run has not either
    refine Or.inr ⟨rfl, fun hpart => ?_⟩
    obtain ⟨-, hunbroken⟩ := hreached.engine.unbroken hpart r hr
    rcases Run.result?_of_calledOff hunbroken with hnone | hstopped
    · exact nomatch hresult.symm.trans hnone
    · exact nomatch hresult.symm.trans hstopped
  · exact Or.inl ⟨_, Option.some.inj (hresult.symm.trans hstopped)⟩

/-- **What becomes of a handle in a step**: it stays as it is, unless its run begins, ends or is
dropped. The three ways in which it can change are told apart by what it was before, so one that is
final has none left. -/
theorem Step.handle_cases (hstep : s.Step incident s') {handle : Handle}
    (hhandle : s.handles[h]? = some handle) :
    s'.handles[h]? = some handle ∨
      (∃ p, handle = .waiting p ∧ s'.handles[h]? = some (s.beginning p)) ∨
      (∃ result, handle = .playing ∧ s.engine.conclude.2.2 = some result ∧
        s'.handles[h]? = some (.over result)) ∨
      handle.isFinal = false ∧ s'.handles[h]? = some .dropped := by
  cases hstep with
  -- these three touch no handle
  | arrange | edit | look => exact Or.inl hhandle
  | spawn => exact Or.inl (s.handles_spawn hhandle)
  | setFlag raised =>
    -- the flag may ask for a run, which puts a new handle behind the others
    refine Or.inl (s.setFlag_cases raised (motive := fun t => t.handles[h]? = some handle) ?_ hhandle)
    exact fun _ _ => handles_spawn _ hhandle
  | run =>
    refine Or.inl ?_
    -- the run is begun for the caller, who holds no handle
    rw [handles_begin, if_neg fun hboth => nomatch hboth.1]
    exact hhandle
  | @begin k p hwaiting =>
    -- a waiting run begins: if it is the run of this handle, this is the second possibility
    rw [handles_begin]
    split
    · next hboth =>
      obtain rfl := Option.some.inj hboth.1
      exact Or.inr (Or.inl ⟨p, Option.some.inj (hhandle.symm.trans hwaiting), rfl⟩)
    · exact Or.inl hhandle
  | work i =>
    rw [handles_hearAll]
    exact Or.inl hhandle
  | conclude =>
    -- the run that is going on ends or does not: if it ends, and this handle is playing it, this is
    -- the third possibility
    rw [handles_conclude]
    cases hresult : s.engine.conclude.2.2 with
    | none => exact Or.inl hhandle
    | some result =>
      dsimp only
      split
      · next hboth =>
        have hplaying := s.playing?_eq_some hboth.1
        exact Or.inr (Or.inr (Or.inl
          ⟨result, Option.some.inj (hhandle.symm.trans hplaying), rfl, rfl⟩))
      · exact Or.inl hhandle
  | drop k =>
    -- this handle or another one is dropped
    rcases s.handles_drop k hhandle with hsame | ⟨-, hdropped⟩
    · exact Or.inl hsame
    · exact Or.inr (Or.inr (Or.inr hdropped))
  | stop => exact Or.inl (by rw [handles_stop, hhandle])
  | stopEngine => exact Or.inl (by rw [handles_stopEngine, hhandle])
  | poke id c => exact Or.inl (by rw [handles_poke, hhandle])

/-- A handle that is final stays as it is: of the four things that can become of a handle, three
begin with one that waits or plays. -/
theorem Step.final (hstep : s.Step incident s') {handle : Handle}
    (hhandle : s.handles[h]? = some handle) (hfinal : handle.isFinal) :
    s'.handles[h]? = some handle := by
  rcases hstep.handle_cases hhandle with hsame | ⟨p, rfl, -⟩ | ⟨result, rfl, -⟩ | ⟨hnot, -⟩
  · exact hsame
  · exact absurd hfinal Bool.false_ne_true
  · exact absurd hfinal Bool.false_ne_true
  · exact absurd (hnot.symm.trans hfinal) Bool.false_ne_true

/-- **No chain of a run that is called off sends anything.** The step of a chain is the only step
that could send something of the run, and a chain that is called off is silent. -/
theorem Reached.silent (hreached : s.Reached rep h) {signals : List Signal}
    (hstep : s.Step (.worked signals) s') : signals = [] := by
  obtain ⟨r, hr⟩ := Option.isSome_iff_exists.mp (hreached.playing h hreached.handle)
  cases hstep with
  | work i =>
    rw [(hreached.engine.performing r hr).step_eq, hreached.calledOff]
    exact r.signals_step_true _ i

/-- A look at the run after which it still goes on has changed nothing. For if it had found a
result, the handle that plays, of which there is one only, would be over. -/
theorem Reached.conclude_eq (hreached : s.Reached rep h)
    (hplaying : s.conclude.handles[h]? = some .playing) : s.conclude = s := by
  cases hresult : s.engine.conclude.2.2 with
  | none => exact s.conclude_of_none hresult
  | some result =>
    -- the run would be over
    obtain ⟨k, hk⟩ := Option.isSome_iff_exists.mp (s.playing?_isSome hreached.handle)
    obtain rfl := hreached.unique h k hreached.handle (s.playing?_eq_some hk)
    rw [handles_conclude, hresult] at hplaying
    dsimp only at hplaying
    rw [if_pos ⟨hk, (List.getElem?_eq_some_iff.mp hreached.handle).1⟩] at hplaying
    exact nomatch hplaying

/-- A run that is still going on has not been dropped, and neither has any other one that went on,
as there was none. So the engine is untouched by the dropping of a waiting run. -/
theorem Reached.engine_drop (hreached : s.Reached rep h) {k : Nat}
    (hplaying : (s.drop k).handles[h]? = some .playing) : (s.drop k).engine = s.engine := by
  unfold Session.drop at hplaying ⊢
  split at hplaying
  · rfl
  · next hk =>
    -- the run would be dropped
    obtain rfl := hreached.unique h k hreached.handle hk
    dsimp only at hplaying
    rw [handles_set, if_pos ⟨rfl, (List.getElem?_eq_some_iff.mp hk).1⟩] at hplaying
    exact nomatch hplaying
  · rfl

/-- **A run that is called off stays so** in any step after which it still goes on. What could take
the mark back is a new run or the end of this one: the former is not begun while this one lasts, the
latter contradicts that it goes on. -/
theorem Reached.calledOff_step (hreached : s.Reached rep h) (hstep : s.Step incident s')
    (hplaying : s'.handles[h]? = some .playing) : s'.engine.guard.calledOff = true := by
  obtain ⟨r, hr⟩ := Option.isSome_iff_exists.mp (hreached.playing h hreached.handle)
  have hperforming := hreached.engine.performing r hr
  have hoff := hreached.calledOff
  cases hstep with
  | arrange | edit | look | spawn => exact hoff
  | setFlag raised => rwa [engine_setFlag]
  -- another run that is asked for is ignored
  | run => rwa [engine_begin, hperforming.start_eq]
  | begin => rwa [engine_begin, hperforming.start_eq]
  | work i =>
    -- the step of a chain leaves the guard alone
    rw [engine_hearAll]
    dsimp only
    rwa [(hperforming.step i).2.1]
  | conclude => rwa [hreached.conclude_eq hplaying]
  | drop k => rwa [hreached.engine_drop hplaying]
  | stop =>
    -- a second stop finds the mark already set
    rw [engine_stop]
    exact hperforming.stop.2
  | stopEngine =>
    rw [engine_stopEngine]
    exact hperforming.stop.2
  | poke id c => rwa [engine_poke, (s.engine.poke_alone id c).1]

/-- **What a step does to a run that is called off**: it goes on and shows nothing, or it is over.
This is the step of the induction in `Reached.steps`; its cases are those of `Step.handle_cases` for
a handle that plays. -/
theorem Reached.step (hreached : s.Reached rep h) (hstep : s.Step incident s') :
    (s'.Reached rep h ∧ ∀ signals, incident = .worked signals → signals = []) ∨
      (∃ result, s'.handles[h]? = some (.over result) ∧ IsHalted rep result) ∨
      s'.handles[h]? = some .dropped := by
  have hsound := hreached.toSound.step hstep
  rcases hstep.handle_cases hreached.handle with hsame | ⟨p, hwaiting, -⟩ |
    ⟨result, -, hresult, hover⟩ | ⟨-, hdropped⟩
  -- the handle still plays, so the run is still called off, and whatever worked was silent
  · refine Or.inl ⟨⟨hsound, hsame, hreached.calledOff_step hstep hsame⟩, ?_⟩
    rintro signals rfl
    exact hreached.silent hstep
  · exact nomatch hwaiting
  · exact Or.inr (Or.inl ⟨result, hover, hreached.isHalted hresult⟩)
  · exact Or.inr (Or.inr hdropped)

end Reached

/-! ### Sessions as steps -/

section Steps

variable {s s' s'' : Session}

/-- Steps after steps are steps, and what they were is told in the same order. -/
theorem Steps.trans {incidents incidents' : List Incident} (h : s.Steps incidents s')
    (h' : s'.Steps incidents' s'') : s.Steps (incidents ++ incidents') s'' := by
  induction h' with
  | refl => rwa [List.append_nil]
  | step _ hstep ih =>
    rw [← List.append_assoc]
    exact ih.step hstep

/-- One step by itself. -/
theorem Steps.single {incident : Incident} (h : s.Step incident s') :
    s.Steps [incident] s' := Steps.refl.step h

/-- What some steps lead to, whatever they were. The session's own functions are shown to lead from
where they begin to where they end; so all that is shown of steps holds of them too. -/
def Leads (s s' : Session) : Prop := ∃ incidents, s.Steps incidents s'

theorem Leads.refl (s : Session) : s.Leads s := ⟨_, .refl⟩

theorem Leads.trans (h : s.Leads s') (h' : s'.Leads s'') : s.Leads s'' := by
  obtain ⟨_, hsteps⟩ := h
  obtain ⟨_, hsteps'⟩ := h'
  exact ⟨_, hsteps.trans hsteps'⟩

/-- A single step leads to where it leads. -/
theorem Step.leads {incident : Incident} (h : s.Step incident s') : s.Leads s' := ⟨_, .single h⟩

/-- Jobs and timers in another order, at another time. The scheduler of the session does nothing
else by itself. -/
theorem leads_arrange (s : Session) (now : Nat) (jobs : List Job) (timers : List Timer) :
    s.Leads { s with now, jobs, timers } := (Step.arrange now jobs timers).leads

/-- **The work of a chain**: there is nobody to do it, it has to wait, it is over, or it takes a
step. These are the ways through `moveChain`, each with what was found on it; only the last one is a
step of the run. -/
theorem moveChain_cases (s : Session) (i : Nat) (jobs : List Job) {motive : Session → Prop}
    (nobody : s.engine.chain? i = none → motive { s with jobs })
    (waits : ∀ c wake, s.engine.chain? i = some c → s.mustWait c = some wake →
      motive { s with jobs, timers := s.timers ++ [⟨wake, i⟩] })
    (ends : ∀ c, s.engine.chain? i = some c → s.mustWait c = none → c.ending?.isSome →
      motive ({ s with jobs }.afterChain i c))
    (works : ∀ c, s.engine.chain? i = some c → s.mustWait c = none → c.ending? = none →
      motive ({ s with engine := (s.engine.step i).1 }.hearAll (s.engine.step i).2)) :
    motive (s.moveChain i jobs) := by
  unfold moveChain
  cases hc : s.engine.chain? i with
  | none => exact nobody hc
  | some c =>
    dsimp only
    cases hwait : s.mustWait c with
    | some wake => exact waits c wake hc hwait
    | none =>
      dsimp only
      split
      · next hended => exact ends c hc hwait hended
      · next hgoing => exact works c hc hwait (by simpa using hgoing)

/-- The work of a chain leads on by steps. Where the chain is over, the next chain is scheduled, or
the run is looked at for its end, which is a step too. -/
theorem leads_moveChain (s : Session) (i : Nat) (jobs : List Job) :
    s.Leads (s.moveChain i jobs) := by
  have hjobs : s.Leads { s with jobs } := s.leads_arrange s.now jobs s.timers
  refine s.moveChain_cases i jobs (fun _ => hjobs) (fun _ _ _ _ => s.leads_arrange s.now jobs _)
    (fun c _ _ _ => hjobs.trans ?_) fun _ _ _ _ => (Step.work i).leads
  unfold afterChain
  split
  · split
    · exact leads_arrange _ _ _ _
    · exact Step.conclude.leads
  · split
    · exact .refl _
    · exact leads_arrange _ _ _ _

/-- The next piece of work of a session leads on by steps: first the job is taken from the queue,
and then it is done. -/
theorem leads_move? (h : s.move? = some s') : s.Leads s' := by
  unfold move? at h
  split at h
  · exact nomatch h
  · next k jobs _ =>
    have hjobs : s.Leads { s with jobs } := s.leads_arrange s.now jobs s.timers
    -- a task that begins a run, unless its handle was dropped in the meantime
    split at h
    · next p hwaiting =>
      obtain rfl := Option.some.inj h
      have hbegin : ({ s with jobs } : Session).Step .other _ := .begin hwaiting
      exact hjobs.trans hbegin.leads
    · obtain rfl := Option.some.inj h
      exact hjobs
  -- a chain, the end of a run, or a handle to be dropped
  · next i jobs _ =>
    obtain rfl := Option.some.inj h
    exact s.leads_moveChain i jobs
  · next jobs _ =>
    obtain rfl := Option.some.inj h
    exact (s.leads_arrange s.now jobs s.timers).trans Step.conclude.leads
  · next k jobs _ =>
    obtain rfl := Option.some.inj h
    exact (s.leads_arrange s.now jobs s.timers).trans (Step.drop k).leads

/-- **What a session does by itself is made of steps.** It works on the next job, or lets time pass
until the next timer is due if there is no job. -/
theorem leads_next? {limit : Nat} (h : s.next? limit = some s') : s.Leads s' := by
  unfold next? at h
  split at h
  · next s₁ hmove =>
    obtain rfl := Option.some.inj h
    exact leads_move? hmove
  · split at h
    · exact nomatch h
    · split at h
      · obtain rfl := Option.some.inj h
        exact s.leads_arrange _ _ _
      · exact nomatch h

/-- Working until nothing is left to do, within a limit of time, is made of steps. The induction is
on the fuel, which the steps do not know. -/
theorem leads_drain (limit fuel : Nat) (s : Session) : s.Leads (drain limit fuel s) := by
  induction fuel generalizing s with
  | zero => exact .refl s
  | succ fuel ih =>
    unfold drain
    split
    · next s' hnext => exact (leads_next? hnext).trans (ih s')
    · exact .refl s

/-- So is waiting for something to be so, including the time that passes when nothing else happens.
-/
theorem leads_waitUntil (isSo : Session → Bool) (fuel : Nat) (s : Session) :
    s.Leads (waitUntil isSo fuel s) := by
  induction fuel generalizing s with
  | zero => exact .refl s
  | succ fuel ih =>
    unfold waitUntil
    split
    · next s' hnext => exact (leads_next? hnext).trans (ih s')
    · split
      · exact .refl s
      · split
        · exact (s.leads_arrange _ _ _).trans (ih _)
        · exact .refl s

/-- Letting some time pass is made of steps. -/
theorem leads_advance (s : Session) (ms : Nat) : s.Leads (s.advance ms) :=
  (leads_drain _ _ s).trans (leads_arrange _ _ _ _)

/-- And so is waiting for the run of a handle to be over. -/
theorem leads_join (s : Session) (h : Nat) : s.Leads (s.join h) := leads_waitUntil _ _ s

end Steps

/-! ### What a stop reaches -/

/-- **What a stop of the host reaches**, at some time of a session. -/
structure Heeds (rep : Repertoire) (s : Session) : Prop where
  /-- A run that is going on does not complete after the stop: it is reported stopped, unless it
  breaks down or is dropped. As long as it goes on, no chain of it sends a frame or anything else. -/
  reached : ∀ h : Nat, s.handles[h]? = some .playing → ∀ incidents s', s.stop.Steps incidents s' →
    (s'.handles[h]? = some .playing ∧ ∀ signals, .worked signals ∈ incidents → signals = []) ∨
      (∃ result, s'.handles[h]? = some (.over result) ∧ IsHalted rep result) ∨
      s'.handles[h]? = some .dropped
  /-- While no run is going on, a stop leaves the engine as it is. -/
  idle : s.engine.run? = none → s.stop.engine = s.engine
  /-- A run that is yet to begin is ignored if another one is going on in its first turn. -/
  ignored : ∀ (h : Nat) (p : Project), s.handles[h]? = some (.waiting p) →
    s.engine.run?.isSome → (s.begin (some h) p).handles[h]? = some (.over (.report ⟨.ignored, 0⟩))
  /-- Otherwise it begins, and no earlier stop has called it off. -/
  begins : ∀ (h : Nat) (p : Project), s.handles[h]? = some (.waiting p) → p.program.starts ≠ [] →
    s.engine.run? = none → (s.begin (some h) p).handles[h]? = some .playing ∧
      (s.begin (some h) p).engine.isCalledOff = false

/-- **A run that is called off** stays so, through any steps, until it is over. Once it is over its
handle is final, and no later step makes anything else of it. -/
theorem Reached.steps {rep : Repertoire} {s s' : Session} {h : Nat} (hreached : s.Reached rep h)
    {incidents : List Incident} (hsteps : s.Steps incidents s') :
    (s'.Reached rep h ∧ ∀ signals, .worked signals ∈ incidents → signals = []) ∨
      (∃ result, s'.handles[h]? = some (.over result) ∧ IsHalted rep result) ∨
      s'.handles[h]? = some .dropped := by
  induction hsteps with
  | refl => exact Or.inl ⟨hreached, fun _ hmem => absurd hmem List.not_mem_nil⟩
  | step _ hstep ih =>
    rcases ih with ⟨hstill, hsilent⟩ | ⟨result, hover, hhalted⟩ | hdropped
    -- still going on before this step: it goes on silently, or ends with it
    · refine (hstill.step hstep).imp (fun hnext => ⟨hnext.1, fun signals hmem => ?_⟩) id
      rcases List.mem_append.mp hmem with hmem | hmem
      · exact hsilent signals hmem
      · exact hnext.2 signals (List.mem_singleton.mp hmem).symm
    -- over or dropped before this step, and so afterwards
    · exact Or.inr (Or.inl ⟨result, hstep.final hover rfl, hhalted⟩)
    · exact Or.inr (Or.inr (hstep.final hdropped rfl))

/-- **A stop of the host reaches the run that is going on**, and no other one, whatever has happened
in the session before. The first part is the invariant `Reached`, begun at the stop; the others
follow from how an idle or a busy engine answers. -/
theorem stop_heeded {rep : Repertoire} {interval : Duration} {scheduling : Scheduling}
    {incidents : List Incident} {s : Session}
    (hsteps : (ofEngine (.fresh rep interval scheduling)).Steps incidents s) : s.Heeds rep := by
  have hsound : s.Sound rep := (Sound.ofEngine (.fresh interval scheduling)).steps hsteps
  refine ⟨?reached, ?idle, ?ignored, ?begins⟩
  case reached =>
    intro h hplaying incidents' s' hafter
    obtain ⟨r, hr⟩ := Option.isSome_iff_exists.mp (hsound.playing h hplaying)
    have hstep : s.Step .other s.stop := .stop
    -- the stop itself makes the session one whose run is called off
    have hstopped : s.stop.Reached rep h := by
      refine ⟨hsound.step hstep, ?_, ?_⟩
      · rw [handles_stop, hplaying]
      · rw [engine_stop]
        exact (hsound.engine.performing r hr).stop.2
    exact (hstopped.steps hafter).imp (fun hstill => ⟨hstill.1.handle, hstill.2⟩) id
  case idle =>
    intro hrun
    -- nobody holds the guard, so the stop has nothing to mark
    rw [engine_stop]
    unfold Engine.stop Guard.stop
    rw [hsound.engine.idle hrun]
    rfl
  case ignored =>
    intro h p hwaiting hsome
    obtain ⟨r, hr⟩ := Option.isSome_iff_exists.mp hsome
    rw [handles_begin, if_pos ⟨rfl, (List.getElem?_eq_some_iff.mp hwaiting).1⟩, beginning,
      (hsound.engine.performing r hr).start_eq]
  case begins =>
    intro h p hwaiting hstarts hrun
    have hidle := hsound.engine.idle hrun
    have hstart := Engine.start_of_idle hidle p s.now hstarts
    have hbegun := Engine.performing_start hidle p s.now hstarts
    -- the guard a run begins with has no mark on it, whatever was stopped earlier
    constructor
    · rw [handles_begin, if_pos ⟨rfl, (List.getElem?_eq_some_iff.mp hwaiting).1⟩, beginning, hstart]
    · rw [engine_begin, hbegun.isCalledOff_eq, hstart]

/-- A host that asks for a run of the sample project. The task it gets a handle on has not had its
first turn. -/
def sampleSpawned : Session := ((ofEngine (.sample .sequential)).load .sample).spawn.1

/-- **A stop that comes before the first turn of a run** does not reach it: the host had its handle
when it stopped, and still the run shows its frames and completes. -/
theorem stop_before_begin :
    Project.sample.program.starts ≠ [] ∧ sampleSpawned.result? 0 = none ∧
      sampleSpawned.stop.stopped = true ∧
      (sampleSpawned.stop.join 0).result? 0 = some (.report ⟨.completed, 10⟩) ∧
      sampleSpawned.stop.frames.length < (sampleSpawned.stop.join 0).frames.length := by
  decide +kernel

/-- A stop that comes after the first turn of the run is heeded. It comes a tenth of a second in,
while the first chain is on its way, and three operations have been counted by then. -/
theorem stop_heeded_after_begin :
    let s := sampleSpawned.advance 100
    s.Heeds .builtin ∧ (s.stop.join 0).result? 0 = some (.report ⟨.stopped, 3⟩) := by
  have hload : (ofEngine (.sample .sequential)).Leads ((ofEngine (.sample .sequential)).load .sample) :=
    (Step.edit .sample).leads
  have hspawned : (ofEngine (.sample .sequential)).Leads sampleSpawned :=
    hload.trans Step.spawn.leads
  obtain ⟨incidents, hsteps⟩ := hspawned.trans (leads_advance _ 100)
  exact ⟨stop_heeded hsteps, by decide +kernel⟩

end Session

end StagePlay
