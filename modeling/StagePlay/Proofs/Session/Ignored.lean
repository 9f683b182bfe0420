import StagePlay.Proofs.Engine.Calls
import StagePlay.Proofs.Session.Stopping

/-!
# Requests that are ignored

A run that is asked for while another one is going on is ignored. `Session.without` is a session
without such a request, and `Session.Beside` says that another session is this one, but for the flag
that says whether the host has stopped.

* `Session.Beside.step`: a session beside another one can do all that the other one does, as long as
  the request waits or is ignored, and is beside it again.
* `Session.ignored_request_unseen`: so whatever happens after a request that is ignored could have
  happened without it, and only the flag may differ.
* The flag is taken down by the asking, and not by the run that begins. So it comes down as well where
  the run that was stopped is still going on and the request is ignored: `Session.stopped_forgotten`
  is such a session.
-/

namespace StagePlay

/-- A handle whose run waits for its first turn, or was ignored in it. As long as a request is in
this state nothing of it has reached the engine, and it can be left out of the session. -/
def Handle.IsShelved : Handle → Prop
  | .waiting _ => True
  | .over result => result = .report ⟨.ignored, 0⟩
  | .playing | .dropped => False

/-- No run that has begun is reported ignored. So a handle that is over with this report got it in
its first turn. -/
theorem Engine.conclude_ne_ignored (e : Engine) (n : Nat) :
    e.conclude.2.2 ≠ some (.report ⟨.ignored, n⟩) := by
  intro hignored
  obtain ⟨r, -, hresult, -⟩ := e.conclude_of_some hignored
  rcases Run.outcome_of_result? hresult with h | h <;> exact nomatch h

/-! ### Leaving out a request -/

/-- The number of a handle where the handle of a request is left out. The handles behind it move up
by one; a request that the host itself waits for has no handle, and moves nothing. -/
def renumber : Option Nat → Nat → Nat
  | none, k => k
  | some h, k => if h < k then k - 1 else k

/-- The handles without that of a request. -/
def leaveOut : Option Nat → List Handle → List Handle
  | none, handles => handles
  | some h, handles => handles.eraseIdx h

section LeaveOut

variable {asked : Option Nat} {handles : List Handle} {k : Nat}

/-- Leaving out a request with a handle is taking one entry out of the list of handles. -/
theorem leaveOut_some (h : Nat) : leaveOut (some h) handles = handles.eraseIdx h := rfl

/-- And the handles behind it have the number before their own. -/
theorem renumber_some (h k : Nat) : renumber (some h) k = if h < k then k - 1 else k := rfl

/-- Every handle but the left out one is still there, under its new number. -/
theorem getElem?_leaveOut (hk : asked ≠ some k) :
    (leaveOut asked handles)[renumber asked k]? = handles[k]? := by
  cases asked with
  | none => rfl
  | some h =>
    have hne : h ≠ k := fun heq => hk (congrArg some heq)
    rw [leaveOut_some, renumber_some, List.getElem?_eraseIdx]
    by_cases hlt : h < k
    · rw [if_pos hlt, if_neg (by omega), Nat.sub_add_cancel (by omega)]
    · rw [if_neg hlt, if_pos (by omega)]

/-- A handle can be set before the request is left out, or after it under its new number. -/
theorem leaveOut_set (hk : asked ≠ some k) (handle : Handle) :
    leaveOut asked (handles.set k handle) =
      (leaveOut asked handles).set (renumber asked k) handle := by
  cases asked with
  | none => rfl
  | some h =>
    have hne : h ≠ k := fun heq => hk (congrArg some heq)
    rw [leaveOut_some, leaveOut_some, renumber_some]
    by_cases hlt : h < k
    -- behind the request, and before it
    · rw [if_pos hlt, List.eraseIdx_set_lt hlt]
    · rw [if_neg hlt, List.eraseIdx_set_gt (by omega)]

/-- The request is in its place among the handles. Handles are only ever added behind the others, so
it stays there (`Session.Step.placed`). -/
def Placed (asked : Option Nat) (handles : List Handle) : Prop :=
  ∀ h, asked = some h → h < handles.length

/-- A handle that is added behind the others is added behind them without the request too. -/
theorem leaveOut_append (hplaced : Placed asked handles) (handle : Handle) :
    leaveOut asked (handles ++ [handle]) = leaveOut asked handles ++ [handle] := by
  cases asked with
  | none => rfl
  | some h => exact List.eraseIdx_append_of_lt_length (hplaced h rfl) _

/-- What is looked for among the handles is found there, if it is not the request. The request
divides the list into the handles before it, which keep their number, and those behind it. -/
theorem findIdx?_leaveOut {p : Handle → Bool}
    (hnot : ∀ h, asked = some h → ∃ handle, handles[h]? = some handle ∧ p handle = false) :
    (leaveOut asked handles).findIdx? p = (handles.findIdx? p).map (renumber asked) := by
  cases asked with
  | none => exact Option.map_id'.symm
  | some h =>
    obtain ⟨handle, hhandle, hp⟩ := hnot h rfl
    obtain ⟨l, l', rfl, rfl⟩ := exists_append_of_getElem? hhandle
    rw [leaveOut_some, List.eraseIdx_append_of_length_le (Nat.le_refl _), Nat.sub_self,
      List.eraseIdx_cons_zero, List.findIdx?_append, List.findIdx?_append, List.findIdx?_cons, hp]
    cases hfound : l.findIdx? p with
    | some i =>
      obtain ⟨hlt, -⟩ := List.findIdx?_eq_some_iff_getElem.mp hfound
      exact congrArg some (if_neg (by omega)).symm
    | none =>
      -- what stands behind the request moves up by one
      have hmoves : ∀ i, renumber (some l.length) (i + 1 + l.length) = i + l.length := by
        intro i
        rw [renumber_some, if_pos (by omega)]
        omega
      simp only [Option.none_or, Bool.false_eq_true, if_false, Option.map_map, Function.comp_def,
        hmoves]

end LeaveOut

namespace Session

/-- **A session without a request**: its handle is left out. A request that the host itself waits
for has none, and then this is the session itself. -/
def without (s : Session) (asked : Option Nat) : Session :=
  { s with handles := leaveOut asked s.handles }

/-- **A session beside another one**: the other one without a request. The flag may still be up
here, the answer is not given here where the request was waited for, and the tasks may stand in any
order. All else is the same, the engine and what was shown and heard among it. -/
inductive Beside (asked : Option Nat) (s : Session) : Session → Prop where
  | intro (stopped : Bool) (reply? : Option Result) (jobs : List Job)
      (hstopped : s.stopped = true → stopped = true) (hreply : asked ≠ none → reply? = s.reply?) :
      Beside asked s { s.without asked with stopped, reply?, jobs }

/-- **A request on its shelf**: it waits for its first turn, or was ignored in it. A request that
the host waits for has no handle, and is on no shelf to look for it on. -/
def Shelved (asked : Option Nat) (s : Session) : Prop :=
  ∀ h, asked = some h → ∃ handle, s.handles[h]? = some handle ∧ handle.IsShelved

section Beside

variable {asked : Option Nat} {s t : Session}

/-- A request that is on its shelf is among the handles. -/
theorem Shelved.placed (h : s.Shelved asked) : Placed asked s.handles := by
  intro k hk
  obtain ⟨handle, hhandle, -⟩ := h k hk
  exact (List.getElem?_eq_some_iff.mp hhandle).1

/-- The run that is going on is not the one of the request, since a handle that plays has left the
shelf. -/
theorem Shelved.ne_playing (h : s.Shelved asked) {k : Nat}
    (hk : s.handles[k]? = some .playing) : asked ≠ some k := by
  intro hasked
  obtain ⟨handle, hhandle, hshelved⟩ := h k hasked
  obtain rfl := Option.some.inj (hhandle.symm.trans hk)
  exact hshelved

/-- So the run that is going on is found without the request as well, under its new number. -/
theorem Shelved.playing?_without (h : s.Shelved asked) :
    (s.without asked).playing? = s.playing?.map (renumber asked) := by
  refine findIdx?_leaveOut fun k hk => ?_
  obtain ⟨handle, hhandle, hshelved⟩ := h k hk
  refine ⟨handle, hhandle, ?_⟩
  cases handle with
  -- the request is none of the handles that are searched for
  | playing => exact hshelved.elim
  | waiting | «over» | dropped => rfl

/-- Sessions beside each other have one engine between them; a request on its shelf has not touched
it. -/
theorem Beside.engine_eq (h : s.Beside asked t) : t.engine = s.engine := by
  obtain ⟨⟩ := h
  rfl

/-- The handles beside a session are its own, with the one of the request left out. -/
theorem Beside.handles_eq (h : s.Beside asked t) : t.handles = leaveOut asked s.handles := by
  obtain ⟨⟩ := h
  rfl

/-- Any other handle is found beside it, under its new number. -/
theorem Beside.getElem?_handles (h : s.Beside asked t) {k : Nat} (hk : asked ≠ some k) :
    t.handles[renumber asked k]? = s.handles[k]? := by
  rw [h.handles_eq]
  exact getElem?_leaveOut hk

/-- The engines of both may be exchanged for another one, as long as it is the same. This and the
next lemmas take the fields one by one, so that the calls below can be put together from them. -/
theorem Beside.withEngine (h : s.Beside asked t) (engine : Engine) :
    { s with engine }.Beside asked { t with engine } := by
  obtain ⟨stopped, reply?, jobs, hstopped, hreply⟩ := h
  exact .intro stopped reply? jobs hstopped hreply

/-- The timers of both may be set, to the same ones. -/
theorem Beside.withTimers (h : s.Beside asked t) (timers : List Timer) :
    { s with timers }.Beside asked { t with timers } := by
  obtain ⟨stopped, reply?, jobs, hstopped, hreply⟩ := h
  exact .intro stopped reply? jobs hstopped hreply

/-- The jobs of both may be set, and not even to the same ones: the tasks beside each other stand in
any order. -/
theorem Beside.withJobs (h : s.Beside asked t) (jobs jobs' : List Job) :
    { s with jobs }.Beside asked { t with jobs := jobs' } := by
  obtain ⟨stopped, reply?, -, hstopped, hreply⟩ := h
  exact .intro stopped reply? jobs' hstopped hreply

/-- Both hear the same signals, and what they have heard is the same afterwards. -/
theorem Beside.hearAll (h : s.Beside asked t) (signals : List Signal) :
    (s.hearAll signals).Beside asked (t.hearAll signals) := by
  obtain ⟨stopped, reply?, jobs, hstopped, hreply⟩ := h
  obtain ⟨frames, mailbox, notes, heq⟩ := s.hearAll_eq signals
  have hheard : { s.without asked with stopped, reply?, jobs }.hearAll signals =
      { s.hearAll signals with
        engine := s.engine
        jobs
        timers := s.timers
        project := s.project
        flagRaised := s.flagRaised
        stopped
        handles := leaveOut asked s.handles
        reply? } := s.hearAll_with ..
  rw [hheard, heq]
  exact .intro stopped reply? jobs hstopped hreply

/-- A handle that is not the request may be set in both. -/
theorem Beside.setHandle (h : s.Beside asked t) {k : Nat} (hk : asked ≠ some k) (handle : Handle) :
    { s with handles := s.handles.set k handle }.Beside asked
      { t with handles := t.handles.set (renumber asked k) handle } := by
  obtain ⟨stopped, reply?, jobs, hstopped, hreply⟩ := h
  have hset : { s.without asked with
      stopped, reply?, jobs, handles := (leaveOut asked s.handles).set (renumber asked k) handle } =
        { { s with handles := s.handles.set k handle }.without asked with
          stopped, reply?, jobs } := by
    rw [← leaveOut_set hk]
    rfl
  exact hset ▸ .intro stopped reply? jobs hstopped hreply

/-- Whoever asked for another run gets the same answer in both. If the host waits for it itself, the
answer given last is the same from then on. -/
theorem Beside.answer (h : s.Beside asked t) (asker : Option Nat)
    (hother : ∀ k, asker = some k → asked ≠ some k) (result : Result) :
    (s.answer asker result).Beside asked (t.answer (asker.map (renumber asked)) result) := by
  cases asker with
  | some k => exact h.setHandle (hother k rfl) (.over result)
  | none =>
    obtain ⟨stopped, reply?, jobs, hstopped, -⟩ := h
    exact .intro stopped (some result) jobs hstopped fun _ => rfl

/-- A run begins in either session, or is over at once in both. The engine is asked the same and
answers the same; what is left is to put the answer where it belongs. -/
theorem Beside.begin (h : s.Beside asked t) (asker : Option Nat)
    (hother : ∀ k, asker = some k → asked ≠ some k) (p : Project) :
    (s.begin asker p).Beside asked (t.begin (asker.map (renumber asked)) p) := by
  have hstarts : t.engine.start p t.now = s.engine.start p s.now := by
    obtain ⟨⟩ := h
    rfl
  unfold Session.begin
  rw [hstarts]
  cases s.engine.start p s.now with
  | mk engine rest =>
    obtain ⟨signals, report?⟩ := rest
    have hheard := (h.withEngine engine).hearAll signals
    dsimp only
    generalize { s with engine }.hearAll signals = s₁ at hheard ⊢
    generalize { t with engine }.hearAll signals = t₁ at hheard ⊢
    cases report? with
    -- over at once: the one who asked is answered in both
    | some report => exact hheard.answer asker hother (.report report)
    | none =>
      -- the chains of the run are put to work, and its handle plays, if it has one
      have hbegun := hheard.withJobs (s₁.withChains s₁.jobs) (t₁.withChains t₁.jobs)
      cases asker with
      | some k => exact hbegun.setHandle (hother k rfl) .playing
      | none => exact hbegun

/-- The end of a run comes to both. It is another run than the one of the request, so the handle
that gets its result is there in both. -/
theorem Beside.conclude (h : s.Beside asked t) (hshelved : s.Shelved asked) :
    s.conclude.Beside asked t.conclude := by
  have hplaying : t.playing? = s.playing?.map (renumber asked) := by
    obtain ⟨⟩ := h
    exact hshelved.playing?_without
  have hother : ∀ k, s.playing? = some k → asked ≠ some k :=
    fun k hk => hshelved.ne_playing (s.playing?_eq_some hk)
  unfold Session.conclude
  rw [h.engine_eq, hplaying]
  cases s.engine.conclude with
  | mk engine rest =>
    obtain ⟨signals, result?⟩ := rest
    cases result? with
    | none => exact h
    | some result => exact ((h.withEngine engine).hearAll signals).answer s.playing? hother result

/-- Another handle than the request is dropped in both, and its run with it, if it was going on. -/
theorem Beside.drop (h : s.Beside asked t) {k : Nat} (hk : asked ≠ some k) :
    (s.drop k).Beside asked (t.drop (renumber asked k)) := by
  unfold Session.drop
  rw [h.getElem?_handles hk]
  cases s.handles[k]? with
  | none => exact h
  | some handle =>
    cases handle with
    | waiting p => exact h.setHandle hk .dropped
    | playing =>
      rw [h.engine_eq]
      exact (((h.withEngine s.engine.abandon).withTimers []).withJobs _ _).setHandle hk .dropped
    | «over» | dropped => exact h

/-- Another run is asked for in both. The flag is down in both after that, and the new handles stand
behind the others. -/
theorem Beside.spawn (h : s.Beside asked t) (hplaced : Placed asked s.handles) :
    s.spawn.1.Beside asked t.spawn.1 := by
  obtain ⟨stopped, reply?, jobs, -, hreply⟩ := h
  have hspawned : ({ s.without asked with stopped, reply?, jobs } : Session).spawn.1 =
      { s.spawn.1.without asked with
        stopped := false, reply?, jobs := jobs ++ [.begin (leaveOut asked s.handles).length] } := by
    unfold Session.spawn without
    dsimp only
    rw [leaveOut_append hplaced]
  rw [hspawned]
  exact .intro false reply? _ id hreply

/-- The engine is stopped in both, and wakes those who wait. -/
theorem Beside.stopEngine (h : s.Beside asked t) : s.stopEngine.Beside asked t.stopEngine := by
  unfold Session.stopEngine
  dsimp only
  rw [h.engine_eq]
  split
  · exact ((h.withEngine s.engine.stop).withTimers []).withJobs _ _
  · exact h.withEngine s.engine.stop

/-- A stop puts the flag up in either session, so a flag that differed before does so no longer. -/
theorem Beside.stop (h : s.Beside asked t) : s.stop.Beside asked t.stop := by
  have hflags : { s with stopped := true, flagRaised := false }.Beside asked
      { t with stopped := true, flagRaised := false } := by
    obtain ⟨stopped, reply?, jobs, -, hreply⟩ := h
    exact .intro true reply? jobs (fun _ => rfl) hreply
  exact hflags.stopEngine

/-- The flag that asks for a run is set in both. It has the same value before, so it rises in both
or in neither. -/
theorem Beside.setFlag (h : s.Beside asked t) (hplaced : Placed asked s.handles) (raised : Bool) :
    (s.setFlag raised).1.Beside asked (t.setFlag raised).1 := by
  have hflag : { s with flagRaised := raised }.Beside asked { t with flagRaised := raised } ∧
      t.flagRaised = s.flagRaised := by
    obtain ⟨stopped, reply?, jobs, hstopped, hreply⟩ := h
    exact ⟨.intro stopped reply? jobs hstopped hreply, rfl⟩
  unfold Session.setFlag
  dsimp only
  rw [hflag.2]
  split
  · exact hflag.1.spawn hplaced
  · exact hflag.1

/-- The host asks for a run and waits for it. The stop flag and the answer given last are wiped in
both before the engine is asked. -/
theorem Beside.run (h : s.Beside asked t) :
    ({ s with stopped := false, reply? := none }.begin none s.project).Beside asked
      ({ t with stopped := false, reply? := none }.begin none t.project) := by
  obtain ⟨-, -, jobs, -, -⟩ := h
  have hasking : { s with stopped := false, reply? := none }.Beside asked
      { s.without asked with stopped := false, reply? := none, jobs } :=
    .intro false none jobs id fun _ => rfl
  exact hasking.begin none (fun _ hk => nomatch hk) s.project

/-- The engine goes on, and what it tells is heard. Chains that work and figures that are changed
from outside have this form. -/
theorem Beside.tell (h : s.Beside asked t) (engine : Engine) (signals : List Signal) :
    ({ s with engine }.hearAll signals).Beside asked ({ t with engine }.hearAll signals) :=
  (h.withEngine engine).hearAll signals

end Beside

/-! ### Steps beside each other -/

section Steps

variable {rep : Repertoire} {asked : Option Nat} {s s' t : Session} {incident : Incident}

/-- Handles stay in their places, whatever becomes of them, and so does the one of the request. -/
theorem Step.placed (hstep : s.Step incident s') (h : Placed asked s.handles) :
    Placed asked s'.handles := by
  intro k hk
  have hhandle := List.getElem?_eq_getElem (h k hk)
  rcases hstep.handle_cases hhandle with h' | ⟨_, _, h'⟩ | ⟨_, _, _, h'⟩ | ⟨_, h'⟩ <;>
    exact (List.getElem?_eq_some_iff.mp h').1

/-- **A request that is on its shelf has not left it before.** What has left it plays, is over with
a report other than `ignored`, or was dropped, and none of these comes back. -/
theorem Step.shelved (hstep : s.Step incident s') (hplaced : Placed asked s.handles)
    (h : s'.Shelved asked) : s.Shelved asked := by
  intro k hk
  have hhandle := List.getElem?_eq_getElem (hplaced k hk)
  obtain ⟨handle, hhandle', hshelved⟩ := h k hk
  refine ⟨_, hhandle, ?_⟩
  rcases hstep.handle_cases hhandle with hsame | ⟨p, hwaiting, -⟩ | ⟨result, -, hresult, hover⟩ |
    ⟨-, hdropped⟩
  -- the handle has not changed; its first turn was this step; its run ended with this step, which
  -- then did not report it ignored; it was dropped
  · rwa [← Option.some.inj (hsame.symm.trans hhandle')] at hshelved
  · rw [hwaiting]
    trivial
  · obtain rfl := Option.some.inj (hover.symm.trans hhandle')
    exact absurd (hresult.trans (congrArg some hshelved)) (s.engine.conclude_ne_ignored 0)
  · obtain rfl := Option.some.inj (hdropped.symm.trans hhandle')
    exact hshelved.elim

/-- **A request that is ignored** only gets its answer. The engine is as it was, and nothing is
there to be heard. -/
theorem begin_of_performing {r : Run} (h : s.engine.Performing r) (asker : Option Nat)
    (p : Project) : s.begin asker p = s.answer asker (.report ⟨.ignored, 0⟩) := by
  unfold Session.begin
  rw [h.start_eq]
  rfl

/-- A request that is still on its shelf after its first turn was ignored, so a run was going on.
With an idle engine it would have begun, or been told that there is nothing to start. -/
theorem Sound.performing_of_shelved (hsound : s.Sound rep) {p : Project}
    (h : (s.beginning p).IsShelved) : ∃ r, s.engine.Performing r := by
  cases hrun : s.engine.run? with
  | some r => exact ⟨r, hsound.engine.performing r hrun⟩
  | none =>
    exfalso
    have hidle := hsound.engine.idle hrun
    unfold beginning at h
    by_cases hstarts : p.program.starts = []
    · rw [Engine.start_of_idle_of_nothing hidle p s.now hstarts] at h
      exact nomatch h
    · rw [Engine.start_of_idle hidle p s.now hstarts] at h
      exact h

/-- A step that changes nothing: the scheduler may leave time, jobs and timers as they are. It
stands beside a step that only concerns the request. -/
theorem Step.still (s : Session) : s.Step .other s := .arrange s.now s.jobs s.timers

/-- A session that answers a request is still beside one without it: what becomes of a handle that
is left out cannot be seen there. -/
theorem Beside.answered (h : s.Beside asked t) {k : Nat} (hk : asked = some k) (handle : Handle) :
    { s with handles := s.handles.set k handle }.Beside asked t := by
  obtain ⟨stopped, reply?, jobs, hstopped, hreply⟩ := h
  subst hk
  have hwithout : { s with handles := s.handles.set k handle }.without (some k) =
      s.without (some k) := by
    unfold without
    dsimp only
    rw [leaveOut_some, leaveOut_some, List.eraseIdx_set_eq]
  rw [← hwithout]
  exact .intro stopped reply? jobs hstopped hreply

/-- **The first turn of a request** that is ignored in it. Nothing but its own handle changes, so
the session beside it need not do anything. -/
theorem Beside.firstTurn (h : s.Beside asked t) (hsound : s.Sound rep) {k : Nat} {p : Project}
    (hk : asked = some k) (hwaiting : s.handles[k]? = some (.waiting p))
    (hshelved : (s.begin (some k) p).Shelved asked) : (s.begin (some k) p).Beside asked t := by
  obtain ⟨handle, hhandle, hstill⟩ := hshelved k hk
  have hlt := (List.getElem?_eq_some_iff.mp hwaiting).1
  rw [handles_begin, if_pos ⟨rfl, hlt⟩] at hhandle
  obtain rfl := Option.some.inj hhandle
  obtain ⟨r, hr⟩ := hsound.performing_of_shelved hstill
  rw [begin_of_performing hr]
  exact h.answered hk _

/-- **A request that is on its shelf after a drop** had been ignored before, so there was nothing
left to drop. Had it been waiting, it would be dropped now. -/
theorem Shelved.drop_eq {k : Nat} (h : s.Shelved asked) (hk : asked = some k)
    (hafter : (s.drop k).Shelved asked) : s.drop k = s := by
  obtain ⟨handle, hhandle, hstill⟩ := h k hk
  obtain ⟨handle', hhandle', hstill'⟩ := hafter k hk
  unfold Session.drop at hhandle' ⊢
  rw [hhandle] at hhandle' ⊢
  cases handle with
  | «over» result => rfl
  | waiting p =>
    dsimp only at hhandle'
    rw [handles_set, if_pos ⟨rfl, (List.getElem?_eq_some_iff.mp hhandle).1⟩] at hhandle'
    obtain rfl := Option.some.inj hhandle'
    exact hstill'.elim
  | playing | dropped => exact hstill.elim

/-- **Whatever happens in a session, can happen beside it**, as long as the request is on its shelf.
This is one step of a simulation: most steps are done beside it as they are, and those that concern
the request alone are answered by a step that changes nothing. -/
theorem Beside.step (h : s.Beside asked t) (hsound : s.Sound rep) (hshelved : s.Shelved asked)
    (hstep : s.Step incident s') (hshelved' : s'.Shelved asked) :
    ∃ t', t.Step incident t' ∧ s'.Beside asked t' := by
  cases hstep with
  | arrange now jobs timers =>
    -- these three set fields that both have in common, or that may differ
    refine ⟨_, .arrange now jobs timers, ?_⟩
    obtain ⟨stopped, reply?, -, hstopped, hreply⟩ := h
    exact .intro stopped reply? jobs hstopped hreply
  | edit project =>
    refine ⟨_, .edit project, ?_⟩
    obtain ⟨stopped, reply?, jobs, hstopped, hreply⟩ := h
    exact .intro stopped reply? jobs hstopped hreply
  | look viewer mailbox frames notes =>
    refine ⟨_, .look viewer mailbox frames notes, ?_⟩
    obtain ⟨stopped, reply?, jobs, hstopped, hreply⟩ := h
    exact .intro stopped reply? jobs hstopped hreply
  | spawn => exact ⟨_, .spawn, h.spawn hshelved.placed⟩
  | setFlag raised => exact ⟨_, .setFlag raised, h.setFlag hshelved.placed raised⟩
  | run => exact ⟨_, .run, h.run⟩
  -- what happens to the request itself does not happen beside it
  | @begin k p hwaiting =>
    by_cases hk : asked = some k
    · exact ⟨t, .still t, h.firstTurn hsound hk hwaiting hshelved'⟩
    · have hbeside := (h.getElem?_handles hk).trans hwaiting
      exact ⟨_, .begin hbeside, h.begin (some k) (fun _ heq => Option.some.inj heq ▸ hk) p⟩
  | drop k =>
    by_cases hk : asked = some k
    · rw [hshelved.drop_eq hk hshelved']
      exact ⟨t, .still t, h⟩
    · exact ⟨_, .drop _, h.drop hk⟩
  -- and the engine is the same for both
  | work i =>
    have hwork : t.Step _ _ := .work i
    rw [h.engine_eq] at hwork
    exact ⟨_, hwork, h.tell _ _⟩
  | conclude => exact ⟨_, .conclude, h.conclude hshelved⟩
  | stop => exact ⟨_, .stop, h.stop⟩
  | stopEngine => exact ⟨_, .stopEngine, h.stopEngine⟩
  | poke id c =>
    refine ⟨_, .poke id c, ?_⟩
    unfold Session.poke
    rw [h.engine_eq]
    exact h.tell _ _

/-- **Whatever happens after a request**, could have happened without it, if the request is still on
its shelf. It is then known to have been there all along, which each step of the simulation asks
for. -/
theorem Beside.steps (h : s.Beside asked t) (hsound : s.Sound rep) (hplaced : Placed asked s.handles)
    {incidents : List Incident} (hsteps : s.Steps incidents s') (hshelved : s'.Shelved asked) :
    ∃ t', t.Steps incidents t' ∧ s'.Beside asked t' := by
  have hplaces : ∀ {incidents s'}, s.Steps incidents s' → Placed asked s'.handles := by
    intro incidents s' hsteps
    induction hsteps with
    | refl => exact hplaced
    | step _ hstep ih => exact hstep.placed ih
  -- the induction is on the steps, from the last one back to the request
  induction hsteps with
  | refl => exact ⟨t, .refl, h⟩
  | step hsteps hstep ih =>
    have hbefore := hstep.shelved (hplaces hsteps) hshelved
    obtain ⟨t₁, ht₁, hbeside⟩ := ih hbefore
    obtain ⟨t₂, ht₂, hbeside'⟩ := hbeside.step (hsound.steps hsteps) hbefore hstep hshelved
    exact ⟨t₂, ht₁.step ht₂, hbeside'⟩

end Steps

/-! ### The flag -/

/-- **The host asks for a run**, in one of its three ways: with a handle, by raising the flag, or
waiting for it. Each of them takes down the flag of a stop before the engine is asked. -/
inductive Asks (s : Session) : Session → Prop where
  | spawn : Asks s s.spawn.1
  | setFlag (hlow : s.flagRaised = false) : Asks s (s.setFlag true).1
  | run : Asks s ({ s with stopped := false, reply? := none }.begin none s.project)

section Flag

variable {s s' : Session} {incident : Incident}

/-- What is heard does not move the flag of a stop. -/
theorem stopped_hearAll (s : Session) (signals : List Signal) :
    (s.hearAll signals).stopped = s.stopped := by
  obtain ⟨frames, mailbox, notes, heq⟩ := s.hearAll_eq signals
  rw [heq]

/-- Neither does an answer to whoever asked for a run. -/
theorem stopped_answer (s : Session) (asker : Option Nat) (result : Result) :
    (s.answer asker result).stopped = s.stopped := by
  cases asker <;> rfl

/-- Nor the beginning of a run. The flag was taken down when the run was asked for, and may be up
again since. -/
theorem stopped_begin (s : Session) (asker : Option Nat) (p : Project) :
    (s.begin asker p).stopped = s.stopped := by
  unfold Session.begin
  cases s.engine.start p s.now with
  | mk engine rest =>
    obtain ⟨signals, report?⟩ := rest
    cases report? with
    | some report => exact (stopped_answer _ _ _).trans (stopped_hearAll _ _)
    | none => cases asker <;> exact stopped_hearAll { s with engine } signals

/-- **What moves the flag**: a stop, or the asking for a run. All other steps leave it as it was,
the end of the run that was stopped among them. -/
theorem Step.stopped_cases (hstep : s.Step incident s') :
    s'.stopped = s.stopped ∨ s' = s.stop ∨ s.Asks s' := by
  cases hstep with
  | arrange | edit | look => exact Or.inl rfl
  | spawn => exact Or.inr (Or.inr .spawn)
  | setFlag raised =>
    -- a flag that rises asks for a run; any other change of it is just that
    by_cases hrising : raised = true ∧ s.flagRaised = false
    · obtain ⟨rfl, hlow⟩ := hrising
      exact Or.inr (Or.inr (.setFlag hlow))
    · exact Or.inl (s.setFlag_cases raised (motive := fun t => t.stopped = s.stopped)
        (fun hraised hlow => absurd ⟨hraised, hlow⟩ hrising) rfl)
  | run => exact Or.inr (Or.inr .run)
  | begin => exact Or.inl (s.stopped_begin _ _)
  | work i => exact Or.inl (stopped_hearAll _ _)
  | conclude =>
    -- a run that ends, or does not, leaves the flag alone
    refine Or.inl ?_
    cases hresult : s.engine.conclude.2.2 with
    | none => rw [s.conclude_of_none hresult]
    | some result => rw [s.conclude_of_some hresult, stopped_answer, stopped_hearAll]
  | drop k =>
    unfold Session.drop
    split <;> exact Or.inl rfl
  | stop => exact Or.inr (Or.inl rfl)
  | stopEngine =>
    obtain ⟨jobs, timers, heq⟩ := s.stopEngine_eq
    exact Or.inl (by rw [heq])
  | poke id c => exact Or.inl (stopped_hearAll _ _)

/-- After a stop the flag is up, whether or not there was anything to stop. -/
theorem stopped_stop (s : Session) : s.stop.stopped = true := by
  obtain ⟨jobs, timers, heq⟩ := stopEngine_eq { s with stopped := true, flagRaised := false }
  rw [stop, heq]

/-- **The flag comes down by the asking for a run**, and by nothing else. The induction goes back
from the step after which it is down to the one that took it down. -/
theorem Steps.asks {incidents : List Incident} (hsteps : s.Steps incidents s')
    (hup : s.stopped = true) (hdown : s'.stopped = false) :
    ∃ s₁ s₂, s.Leads s₁ ∧ s₁.Asks s₂ ∧ s₂.Leads s' := by
  induction hsteps with
  | refl => exact nomatch hup.symm.trans hdown
  | @step incidents s₁ s₂ incident hsteps hstep ih =>
    rcases hstep.stopped_cases with hsame | hstop | hasks
    -- not this step: it was down before; a stop would have put it up; or this step is the asking
    · obtain ⟨before, after, hbefore, hasks, hafter⟩ := ih (hsame.symm.trans hdown)
      exact ⟨before, after, hbefore, hasks, hafter.trans hstep.leads⟩
    · rw [hstop, stopped_stop] at hdown
      exact nomatch hdown
    · exact ⟨s₁, s₂, ⟨_, hsteps⟩, hasks, .refl s₂⟩

end Flag

/-! ### What is left of an ignored request -/

/-- A result is given to a handle whose run is over, and that is the result the handle has. -/
theorem handle_of_result? (s : Session) {h : Nat} {result : Result}
    (hresult : s.result? h = some result) : s.handles[h]? = some (.over result) := by
  unfold result? at hresult
  split at hresult
  · next hover =>
    rw [hover, Option.some.inj hresult]
  · exact nomatch hresult

/-- **That requests are ignored without a trace**, but for the flag. -/
structure Ignores (s : Session) : Prop where
  /-- Whatever happens after a request that is ignored in its first turn, could have happened without
  it: the stage and its frames, the events, the run that is going on, the project and the handles of
  all other runs are the same, and so is the time. -/
  spawned : ∀ incidents s', s.spawn.1.Steps incidents s' →
    s'.result? s.spawn.2 = some (.report ⟨.ignored, 0⟩) →
    ∃ t, s.Steps incidents t ∧ s'.Beside (some s.spawn.2) t
  /-- A request that the host waits for is ignored at once while a run is going on. It takes the flag
  down, and whatever happens then could have happened without it. -/
  awaited : s.engine.isRunning = true →
    { s with stopped := false, reply? := none }.begin none s.project =
        { s with stopped := false, reply? := some (.report ⟨.ignored, 0⟩) } ∧
      ∀ incidents s', { s with stopped := false, reply? := none }.begin none s.project
          |>.Steps incidents s' → ∃ t, s.Steps incidents t ∧ s'.Beside none t
  /-- Once up, the flag comes down by the asking for a run, whatever becomes of the request. -/
  flag : s.stopped = true → ∀ incidents s', s.Steps incidents s' → s'.stopped = false →
    ∃ s₁ s₂, s.Leads s₁ ∧ s₁.Asks s₂ ∧ s₂.Leads s'

/-- **A request that is ignored is unseen**, but for the flag, whatever has happened before. Both
kinds of request come to the simulation above: one with a handle is on its shelf at the end by
hypothesis, one that the host waits for is ignored before anything else happens. -/
theorem ignored_request_unseen {rep : Repertoire} {interval : Duration} {scheduling : Scheduling}
    {incidents : List Incident} {s : Session}
    (hsteps : (ofEngine (.fresh rep interval scheduling)).Steps incidents s) : s.Ignores := by
  have hsound : s.Sound rep := (Sound.ofEngine (.fresh interval scheduling)).steps hsteps
  refine ⟨?spawned, ?awaited, fun hup _ _ hafter hdown => hafter.asks hup hdown⟩
  case spawned =>
    intro incidents' s' hafter hresult
    have hgiven : s.spawn.1.handles = s.handles ++ [.waiting s.project] := rfl
    -- without its last handle, the session is as it was before the request
    have hwithout : leaveOut (some s.handles.length) s.spawn.1.handles = s.handles := by
      rw [hgiven, leaveOut_some, List.eraseIdx_append_of_length_le (Nat.le_refl _), Nat.sub_self]
      exact List.append_nil _
    have hsame : { s.spawn.1.without (some s.spawn.2) with
        stopped := s.stopped, reply? := s.reply?, jobs := s.jobs } = s := by
      unfold without
      dsimp only [Session.spawn] at hwithout ⊢
      rw [hwithout]
    have hbeside : s.spawn.1.Beside (some s.spawn.2) { s.spawn.1.without (some s.spawn.2) with
        stopped := s.stopped, reply? := s.reply?, jobs := s.jobs } :=
      .intro s.stopped s.reply? s.jobs (fun h => nomatch h) fun _ => rfl
    rw [hsame] at hbeside
    refine hbeside.steps hsound.spawn ?_ hafter ?_
    · rintro _ ⟨⟩
      rw [hgiven, List.length_append]
      exact Nat.lt_succ_self _
    · rintro _ ⟨⟩
      exact ⟨_, s'.handle_of_result? hresult, rfl⟩
  case awaited =>
    intro hrunning
    have hheld : s.engine.run?.isSome := by
      rw [← hsound.engine.held_eq]
      exact hrunning
    obtain ⟨r, hr⟩ := Option.isSome_iff_exists.mp hheld
    have hperforming : { s with stopped := false, reply? := none }.engine.Performing r :=
      hsound.engine.performing r hr
    -- the request is answered before anyone else has a turn, and after that the sessions differ in
    -- flag and answer alone
    have hignored : { s with stopped := false, reply? := none }.begin none s.project =
        { s with stopped := false, reply? := some (.report ⟨.ignored, 0⟩) } :=
      begin_of_performing hperforming none s.project
    refine ⟨hignored, fun incidents' s' hafter => ?_⟩
    rw [hignored] at hafter
    have hbeside : { s with stopped := false, reply? := some (.report ⟨.ignored, 0⟩) }.Beside none s :=
      .intro s.stopped s.reply? s.jobs (fun h => nomatch h) fun h => absurd rfl h
    exact hbeside.steps ⟨hsound.engine, hsound.playing, hsound.unique⟩ (fun _ h => nomatch h) hafter
      fun _ h => nomatch h

/-- **The flag is forgotten**: the host has stopped, and asks for a run while the one that it stopped
is still going on. The request is ignored and no run begins, but the session no longer counts as
stopped. -/
theorem stopped_forgotten :
    let s := (sampleSpawned.advance 100).stop
    s.stopped = true ∧ s.engine.isRunning = true ∧
      s.run.2 = some (.report ⟨.ignored, 0⟩) ∧
      s.run.1.engine.guard.number = s.engine.guard.number ∧ s.run.1.stopped = false := by
  decide +kernel

/-- A second request is ignored, with a stop between the asking and its first turn. The stop reaches
the first run, and what happens could have happened without the second request. -/
theorem ignored_request_unseen_stopped :
    let s := sampleSpawned.advance 100
    let s' := s.spawn.1.stop.join 1
    s'.result? 1 = some (.report ⟨.ignored, 0⟩) ∧ s'.result? 0 = some (.report ⟨.stopped, 3⟩) ∧
      ∃ incidents t, s.Steps incidents t ∧ s'.Beside (some 1) t := by
  intro s s'
  have hload : (ofEngine (.sample .sequential)).Leads ((ofEngine (.sample .sequential)).load .sample) :=
    (Step.edit .sample).leads
  have hspawned : (ofEngine (.sample .sequential)).Leads sampleSpawned :=
    hload.trans Step.spawn.leads
  obtain ⟨incidents, hsteps⟩ := hspawned.trans (leads_advance _ 100)
  have hstopped : s.spawn.1.Leads s.spawn.1.stop := Step.stop.leads
  obtain ⟨incidents', hafter⟩ := hstopped.trans (leads_join _ 1)
  have hhandle : s.spawn.2 = 1 := by decide +kernel
  have hignored : s'.result? 1 = some (.report ⟨.ignored, 0⟩) := by decide +kernel
  have hunseen := (ignored_request_unseen hsteps).spawned incidents' s' hafter
    (by rw [hhandle]; exact hignored)
  rw [hhandle] at hunseen
  exact ⟨hignored, by decide +kernel, incidents', hunseen⟩

end Session

end StagePlay
