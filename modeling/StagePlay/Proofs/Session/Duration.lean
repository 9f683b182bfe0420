import StagePlay.Proofs.Session.Punctual
import StagePlay.Proofs.Session.Stopping

/-!
# How long a run takes

A run that nobody calls off is over when the time has passed that its start blocks cost: their sum if
their chains have their turns one after the other, and the largest of them if they have them all at
once (`Session.run_takes`). What the chains do to the stage does not matter to this, not even where
several of them are for one actor.

* `Session.Goes` is how a session goes on while a run is going on that nobody calls off: by itself, piece
  by piece, and with whatever the host does meanwhile that leaves the run alone (`Session.Leaves`).
* `Session.OnTime` is what holds all the while, and `Goes.onTime` carries it.
-/

namespace StagePlay

namespace Session

/-! ### What goes on meanwhile -/

/-- **The host leaves the run alone**: nothing happens to the run, to those who are on the stage, to
the jobs and timers of the run, and no time passes. Asking for another run and changing a figure are
of this kind. -/
structure Leaves (s s' : Session) : Prop where
  /-- The engine is at the same run, with the same chains. -/
  run_eq : s'.engine.run? = s.engine.run?
  guard_eq : s'.engine.guard = s.engine.guard
  scheduling_eq : s'.engine.scheduling = s.engine.scheduling
  /-- Figures may change, but none comes or goes. Whether a block has an actor to move is all its
  cost depends on. -/
  figures : ∀ owner, (s'.engine.stage.stage.figureOf? owner).isSome =
    (s.engine.stage.stage.figureOf? owner).isSome
  now_eq : s'.now = s.now
  timers_eq : s'.timers = s.timers
  /-- Jobs that have nothing to do with the run may come and go. -/
  jobs : ∀ j, Job.isOfRun j = true → (j ∈ s'.jobs ↔ j ∈ s.jobs)

/-- **How a session goes on** while a run is going on that nobody calls off: what happens next by
itself, time that passes, and what the host does meanwhile, in any order. -/
inductive Goes (s : Session) : Session → Prop where
  | refl : Goes s s
  /-- What happens next, by some time. -/
  | next {s' s'' : Session} {limit : Nat} (hgoes : Goes s s') (hnext : s'.next? limit = some s'')
      (hrun : s''.engine.run?.isSome) : Goes s s''
  /-- Time passes in which nothing is due. -/
  | pass {s' : Session} {now : Nat} (hgoes : Goes s s') (hnow : s'.now ≤ now)
      (hnothing : s'.next? now = none) : Goes s { s' with now }
  /-- The host does something else. -/
  | meanwhile {s' s'' : Session} (hgoes : Goes s s') (hleaves : s'.Leaves s'') : Goes s s''

/-- **The run that is going on ends**, with a result, in what happens next. The moment the session
has after it is the one the run is measured by. -/
structure Ends (s : Session) (result : Result) (s' : Session) : Prop where
  next : ∃ limit, s.next? limit = some s'
  result : s.engine.conclude.2.2 = some result
  «over» : s'.engine.run? = none

/-- A host that asks for a run leaves the one that is going on alone. The new task is behind the
others, and will find the engine busy. -/
theorem leaves_spawn (s : Session) : s.Leaves s.spawn.1 where
  run_eq := rfl
  guard_eq := rfl
  scheduling_eq := rfl
  figures _ := rfl
  now_eq := rfl
  timers_eq := rfl
  jobs j hj := by
    change j ∈ s.jobs ++ [.begin s.handles.length] ↔ j ∈ s.jobs
    rw [List.mem_append, or_iff_left_iff_imp]
    intro hself
    rw [List.mem_singleton.mp hself] at hj
    exact nomatch hj

/-- A host that changes a figure leaves the run that is going on alone. It may even change an actor
that a chain is moving: chains write what they had captured, and count their frames. -/
theorem leaves_poke (s : Session) (id : String) (c : Change) : s.Leaves (s.poke id c).1 := by
  obtain ⟨frames, mailbox, notes, heq⟩ :=
    hearAll_eq { s with engine := (s.engine.poke id c).1 } (s.engine.poke id c).2.1
  have hpoke : (s.poke id c).1 = { s with engine := (s.engine.poke id c).1, frames, mailbox, notes } :=
    heq
  rw [hpoke]
  unfold Engine.poke PublicStage.change
  rw [Stage.change?_eq]
  -- a figure of that name is altered and keeps its id; otherwise nothing happens at all
  by_cases hknown : (s.engine.stage.stage.figureOf? (some id)).isSome = true
  · rw [if_pos hknown]
    exact ⟨rfl, rfl, rfl, fun _ => Stage.figureOf?_alter_isSome (keepsId_apply c) _, rfl, rfl,
      fun _ _ => Iff.rfl⟩
  · rw [if_neg hknown]
    exact ⟨rfl, rfl, rfl, fun _ => rfl, rfl, rfl, fun _ _ => Iff.rfl⟩

/-! ### A session on time -/

/-- **A session with a run on time.** The run's chains have clocks of their own, which say where
each of them would be if it had been alone (`Run.OnTime`); the session's clock, jobs and timers are
such that each chain gets its turn just then (`Run.Punctual`). -/
structure OnTime (score : Score) (scheduling : Scheduling) (p : Nat) (set : Stage) (start : Nat)
    (s : Session) (r : Run) : Prop where
  /-- The run is the one of the engine. -/
  performing : s.engine.Performing r
  /-- Nobody has called it off. -/
  notCalledOff : s.engine.guard.calledOff = false
  scheduling_eq : s.engine.scheduling = scheduling
  run_scheduling_eq : r.scheduling = scheduling
  /-- What the chains have done and have still to do costs what their blocks cost. -/
  onTime : r.OnTime score p set start s.engine.stage.stage
  /-- And the session lets none of them wait longer than it wants to. -/
  punctual : r.Punctual s.now s.jobs s.timers

section Steps

variable {score : Score} {scheduling : Scheduling} {p : Nat} {set : Stage} {start : Nat}
  {s s' : Session} {r : Run}

/-- A run that has not come to its end has a chain that has not. For no chain of it ends in any
other way than by being completed, and with all of them completed the run has a result. -/
theorem OnTime.not_ended (h : s.OnTime score scheduling p set start r)
    (hgoing : s.engine.conclude.2.2 = none) :
    ¬∀ c ∈ r.chains, c.ending?.isSome := by
  intro hall
  have hcompleted : ∀ c ∈ r.chains, c.ending? = some .completed := by
    intro c hc
    obtain ⟨how, hhow⟩ := Option.isSome_iff_exists.mp (hall c hc)
    rw [hhow, h.onTime.completed hc hhow]
  rw [h.performing.conclude_eq.2.2, h.notCalledOff] at hgoing
  exact nomatch hgoing.symm.trans (Run.result?_eq_completed.mpr ⟨rfl, rfl, hcompleted⟩)

/-- The same run in the same engine, with other jobs and timers. Nearly everything a session does by
itself is of this form, and what is to be shown of it is about jobs and timers alone. -/
theorem OnTime.of_punctual (h : s.OnTime score scheduling p set start r) (hengine : s'.engine = s.engine)
    (hpunctual : r.Punctual s'.now s'.jobs s'.timers) : s'.OnTime score scheduling p set start r := by
  refine ⟨?_, ?_, ?_, h.run_scheduling_eq, ?_, hpunctual⟩
  · rw [hengine]
    exact h.performing
  · rw [hengine]
    exact h.notCalledOff
  · rw [hengine]
    exact h.scheduling_eq
  · rw [hengine]
    exact h.onTime

/-- Jobs that are not of the run come and go. Taking one of them from the queue leaves the jobs of
the run in it. -/
theorem OnTime.of_jobs (h : s.OnTime score scheduling p set start r) {job : Job} {jobs : List Job}
    (hjobs : s.jobs = job :: jobs) (hjob : Job.isOfRun job = false) :
    { s with jobs }.OnTime score scheduling p set start r := by
  refine h.of_punctual rfl (h.punctual.mono (fun j hj _ => ?_) fun hall => ?_)
  · rw [hjobs]
    exact List.mem_cons_of_mem _ hj
  -- whoever is to notice the end of the run is still in the queue
  · have hmem {j : Job} (hj : j ∈ s.jobs) (hrun : Job.isOfRun j = true) : j ∈ jobs := by
      rw [hjobs] at hj
      rcases List.mem_cons.mp hj with rfl | hj
      · exact nomatch hjob.symm.trans hrun
      · exact hj
    rcases h.punctual.place hall with hcollect | ⟨i, c, hi, hc, hlast⟩
    · exact .inl (hmem hcollect rfl)
    · exact .inr ⟨i, c, hmem hi rfl, hc, hlast⟩

/-- A job is done for a run that has not come to its end. Who is to notice the end need not be known
yet, since some chain has still to end. -/
theorem OnTime.of_going (h : s.OnTime score scheduling p set start r) {job : Job} {jobs : List Job}
    (hjobs : s.jobs = job :: jobs) (hgoing : s.engine.conclude.2.2 = none) :
    { s with jobs }.OnTime score scheduling p set start r := by
  refine h.of_punctual rfl (h.punctual.mono (fun j hj _ => ?_) fun hall => ?_)
  · rw [hjobs]
    exact List.mem_cons_of_mem _ hj
  · exact absurd hall (h.not_ended hgoing)

/-- **A run that is asked for meanwhile** is ignored: its task finds the engine busy, and the run
that is going on loses no time by it. -/
theorem OnTime.begin (h : s.OnTime score scheduling p set start r) (k : Nat) (project : Project) :
    (s.begin (some k) project).OnTime score scheduling p set start r := by
  unfold Session.begin
  rw [h.performing.start_eq]
  exact h.of_punctual rfl h.punctual

/-- A session whose run is still going on after a look at its end is as it was. Had there been a
result, the run would have been dropped with it. -/
theorem conclude_of_isSome (hrun : s.conclude.engine.run?.isSome) :
    s.engine.conclude.2.2 = none ∧ s.conclude = s := by
  cases hresult : s.engine.conclude.2.2 with
  | none => exact ⟨rfl, s.conclude_of_none hresult⟩
  | some result =>
    -- the run would be over
    obtain ⟨r, -, -, heq⟩ := s.engine.conclude_of_some hresult
    rw [engine_conclude, heq] at hrun
    exact nomatch hrun

/-- **The end of a chain** leads on to the next one, or to a look whether it was the last one. In a
line the next chain is handed the time at which this one ended, which is where its own clock then
stands; side by side, the last one to end puts the look at the end into the queue. -/
theorem OnTime.afterChain (h : s.OnTime score scheduling p set start r) {i : Nat} {c : Chain}
    {jobs : List Job}
    (hjobs : s.jobs = .chain i :: jobs) (hc : r.chains[i]? = some c) (hended : c.ending?.isSome)
    (hrun : ({ s with jobs }.afterChain i c).engine.run?.isSome) :
    ({ s with jobs }.afterChain i c).OnTime score scheduling p set start r := by
  have hpunctual := h.punctual
  rw [hjobs] at hpunctual
  unfold Session.afterChain at hrun ⊢
  dsimp only at hrun ⊢
  rw [h.scheduling_eq, h.performing.chain?_eq] at hrun ⊢
  have hscheduling := h.run_scheduling_eq
  cases scheduling with
  | sequential =>
    dsimp only at hrun ⊢
    split
    · next hnext =>
      obtain ⟨hcompleted, hsome⟩ := Bool.and_eq_true_iff.mp hnext
      obtain ⟨c', hc'⟩ := Option.isSome_iff_exists.mp hsome
      have hline := h.onTime.chains
      rw [hscheduling] at hline
      -- the chain behind it begins where this one has stopped
      have hhanded : c.clock ≤ c'.time :=
        InLine.clock_le_time hline hc (of_decide_eq_true hcompleted) hc'
      exact h.of_punctual rfl (hpunctual.follow hc hended hc' hscheduling hhanded)
    · next hnot =>
      -- there is none behind it, so the end of the run is looked for; as the run still goes on, it
      -- was not there
      rw [if_neg hnot] at hrun
      obtain ⟨hgoing, hsame⟩ := conclude_of_isSome hrun
      rw [hsame]
      exact h.of_going hjobs hgoing
  | concurrent =>
    dsimp only
    split
    · next hcollect =>
      -- the collecting job is in the queue already
      refine h.of_punctual rfl (hpunctual.mono (fun j hj _ => List.mem_cons_of_mem _ hj) fun _ => ?_)
      exact .inl (by simpa using hcollect)
    -- it is put there now
    · exact h.of_punctual rfl (hpunctual.look hc hended hscheduling)

variable (hp : 1 ≤ p) (hp' : p ≤ longestWait) (hbuiltin : score.repertoire = .builtin)
  (hinterval : score.interval = .ofMillis p)

include hp hp' hbuiltin hinterval

/-- **A chain that takes a step** keeps its session on time. It works when it is due and not
earlier, which is what `hdue` says, and its clock moves on by what the step costs. -/
theorem OnTime.work (h : s.OnTime score scheduling p set start r) {i : Nat} {c : Chain}
    (hjob : .chain i ∈ s.jobs) (hc : r.chains[i]? = some c) (hending : c.ending? = none)
    (hdue : ∀ wake ∈ c.wake?, wake ≤ s.now) :
    ({ s with engine := (s.engine.step i).1 }.hearAll (s.engine.step i).2).OnTime score scheduling p
      set start (r.step false s.engine.stage.stage i).1 := by
  obtain ⟨hperforming, hguard, hstage⟩ := h.performing.step i
  rw [h.notCalledOff] at hperforming hstage
  obtain ⟨frames, mailbox, notes, heq⟩ :=
    hearAll_eq { s with engine := (s.engine.step i).1 } (s.engine.step i).2
  rw [heq]
  refine ⟨hperforming, ?_, ?_, ?_, ?_, h.punctual.step h.onTime hjob hc hending hdue⟩
  · exact (congrArg Guard.calledOff hguard).trans h.notCalledOff
  · dsimp only
    rw [h.performing.step_eq]
    exact h.scheduling_eq
  · rw [Run.scheduling_step]
    exact h.run_scheduling_eq
  · dsimp only
    rw [hstage]
    exact h.onTime.step hp hp' hbuiltin hinterval hc hending

omit hp hp' hbuiltin hinterval in
/-- As long as nobody calls the run off, a chain waits for its own time: it is woken when its rest
is over, and only a call-off could wake it before. -/
theorem OnTime.mustWait_eq (h : s.OnTime score scheduling p set start r) (c : Chain) :
    s.mustWait c = c.wake?.filter fun wake => s.now < wake := by
  unfold mustWait
  rw [h.performing.isCalledOff_eq, h.notCalledOff]
  rfl

/-- **A chain at work** keeps its session on time, in each of the four things that can become of its
job. -/
theorem OnTime.moveChain (h : s.OnTime score scheduling p set start r) {i : Nat} {jobs : List Job}
    (hjobs : s.jobs = .chain i :: jobs) (hrun : (s.moveChain i jobs).engine.run?.isSome) :
    ∃ r', (s.moveChain i jobs).OnTime score scheduling p set start r' := by
  have hpunctual := h.punctual
  rw [hjobs] at hpunctual
  revert hrun
  refine s.moveChain_cases i jobs
    (motive := fun s' => s'.engine.run?.isSome → ∃ r', s'.OnTime score scheduling p set start r')
    ?nobody ?waits ?ends ?works <;> rw [h.performing.chain?_eq]
  -- there is no such chain, and its job is gone from the queue
  case nobody => exact fun hc _ => ⟨r, h.of_punctual rfl (hpunctual.nobody hc)⟩
  case waits =>
    -- it rests, and a timer is set for when its rest is over
    intro c wake hc hwait _
    rw [h.mustWait_eq] at hwait
    obtain ⟨hwake, hlater⟩ := Option.filter_eq_some_iff.mp hwait
    exact ⟨r, h.of_punctual rfl (hpunctual.wait hc hwake (of_decide_eq_true hlater))⟩
  -- it has ended, and hands over to the next one
  case ends => exact fun c hc _ hended hrun => ⟨r, h.afterChain hjobs hc hended hrun⟩
  case works =>
    -- it is due, since it need not wait
    intro c hc hwait hgoing _
    rw [h.mustWait_eq] at hwait
    have hdue : ∀ wake ∈ c.wake?, wake ≤ s.now := by
      intro wake hwake
      have hnot := Option.filter_eq_none_iff.mp hwait wake hwake
      exact Nat.le_of_not_lt (by simpa using hnot)
    have hjob : Job.chain i ∈ s.jobs := by
      rw [hjobs]
      exact List.mem_cons_self
    exact ⟨_, h.work hp hp' hbuiltin hinterval hjob hc hgoing hdue⟩

/-- **The next piece of work** keeps a session on time, whatever kind of job it is. -/
theorem OnTime.move? (h : s.OnTime score scheduling p set start r) (hmove : s.move? = some s')
    (hrun : s'.engine.run?.isSome) : ∃ r', s'.OnTime score scheduling p set start r' := by
  unfold Session.move? at hmove
  split at hmove
  · exact nomatch hmove
  · next k jobs hjobs =>
    -- another run is to begin, or its handle was dropped before it could
    have hrest := h.of_jobs hjobs rfl
    split at hmove
    · next project _ =>
      obtain rfl := Option.some.inj hmove
      exact ⟨r, hrest.begin k project⟩
    · obtain rfl := Option.some.inj hmove
      exact ⟨r, hrest⟩
  · next i jobs hjobs =>
    obtain rfl := Option.some.inj hmove
    -- a chain of the run
    exact h.moveChain hp hp' hbuiltin hinterval hjobs hrun
  · next jobs hjobs =>
    obtain rfl := Option.some.inj hmove
    -- the look at the end of the run, which has not come
    obtain ⟨hgoing, hsame⟩ := conclude_of_isSome hrun
    rw [hsame]
    exact ⟨r, h.of_going hjobs hgoing⟩
  · next k jobs hjobs =>
    obtain rfl := Option.some.inj hmove
    -- a handle is dropped, and it is not the one of the run
    have hrest := h.of_jobs hjobs rfl
    unfold Session.drop at hrun ⊢
    split
    · exact ⟨r, hrest.of_punctual rfl hrest.punctual⟩
    · next hplaying =>
      -- the run would be gone
      rw [hplaying] at hrun
      exact nomatch hrun
    · exact ⟨r, hrest⟩

omit hp hp' hbuiltin hinterval in
/-- A session that has no work to do has no jobs: every job in the queue is one it can do. -/
theorem jobs_of_move?_eq_none (h : s.move? = none) : s.jobs = [] := by
  unfold Session.move? at h
  split at h
  · next hjobs => exact hjobs
  · split at h <;> exact nomatch h
  · exact nomatch h
  · exact nomatch h
  · exact nomatch h

/-- **What happens next** keeps a session on time, while its run goes on. Either a job is done at
once, or the queue is empty and the clock goes forward to the first timer. -/
theorem OnTime.next? (h : s.OnTime score scheduling p set start r) {limit : Nat}
    (hnext : s.next? limit = some s') (hrun : s'.engine.run?.isSome) :
    ∃ r', s'.OnTime score scheduling p set start r' := by
  unfold Session.next? at hnext
  split at hnext
  · next s₁ hmove =>
    obtain rfl := Option.some.inj hnext
    exact h.move? hp hp' hbuiltin hinterval hmove hrun
  · next hmove =>
    have hjobs := jobs_of_move?_eq_none hmove
    have hpunctual := h.punctual
    rw [hjobs] at hpunctual
    split at hnext
    · exact nomatch hnext
    · next t hwake =>
      split at hnext
      · obtain rfl := Option.some.inj hnext
        -- nothing is left to do now, so the clock goes to the first timer, and past none
        obtain ⟨hfirst, hleast⟩ := List.min?_eq_some_iff.mp hwake
        obtain ⟨timer, hmem, rfl⟩ := List.mem_map.mp hfirst
        have hlater := (hpunctual.timer timer hmem).1
        have hpassed := hpunctual.wake hlater.le fun other hother =>
          hleast _ (List.mem_map_of_mem hother)
        refine ⟨r, h.of_punctual rfl ?_⟩
        unfold wakeAt
        rw [hjobs, List.nil_append, Nat.max_eq_right hlater.le]
        exact hpassed
      · exact nomatch hnext

omit hp hp' hbuiltin hinterval in
/-- Time that passes keeps a session on time, if nothing is due in it. All timers are then set for
later, and every chain that waits is right to do so. -/
theorem OnTime.pass (h : s.OnTime score scheduling p set start r) {now : Nat} (hnow : s.now ≤ now)
    (hnothing : s.next? now = none) : { s with now }.OnTime score scheduling p set start r := by
  unfold Session.next? at hnothing
  split at hnothing
  · exact nomatch hnothing
  · next hmove =>
    have hjobs := jobs_of_move?_eq_none hmove
    have hpunctual := h.punctual
    rw [hjobs] at hpunctual
    -- no timer goes off by then
    have hnext : ∀ timer ∈ s.timers, now < timer.wake := by
      intro timer hmem
      split at hnothing
      · next hwake =>
        have hnobody : s.timers = [] :=
          List.map_eq_nil_iff.mp (List.min?_eq_none_iff.mp hwake)
        rw [hnobody] at hmem
        exact nomatch hmem
      · next t hwake =>
        split at hnothing
        · exact nomatch hnothing
        · next hnot =>
          have hleast := (List.min?_eq_some_iff.mp hwake).2 _ (List.mem_map_of_mem hmem)
          exact (Nat.lt_of_not_le hnot).trans_le hleast
    have hpassed := hpunctual.wake hnow fun timer hmem => (hnext timer hmem).le
    have hnobody : s.timers.filter (fun timer => timer.wake ≤ now) = [] :=
      List.filter_eq_nil_iff.mpr fun timer hmem => by simpa using hnext timer hmem
    have hall : s.timers.filter (fun timer => !(timer.wake ≤ now)) = s.timers :=
      List.filter_eq_self.mpr fun timer hmem => by simpa using hnext timer hmem
    rw [hnobody, hall] at hpassed
    refine h.of_punctual rfl ?_
    rw [hjobs]
    exact hpassed

omit hp hp' hbuiltin hinterval in
/-- What the host does meanwhile keeps a session on time: everything the invariant speaks of is
among what the host leaves alone. -/
theorem OnTime.meanwhile (h : s.OnTime score scheduling p set start r) (hleaves : s.Leaves s') :
    s'.OnTime score scheduling p set start r := by
  refine ⟨⟨?_, ?_, ?_⟩, ?_, ?_, h.run_scheduling_eq,
    ⟨h.onTime.score_eq, fun owner => ?_, h.onTime.chains⟩, ?_⟩
  · rw [hleaves.run_eq, h.performing.run_eq]
  · rw [hleaves.guard_eq, h.performing.held]
  · rw [hleaves.guard_eq, h.performing.number_eq]
  · rw [hleaves.guard_eq, h.notCalledOff]
  · rw [hleaves.scheduling_eq, h.scheduling_eq]
  · rw [hleaves.figures, h.onTime.figures]
  · rw [hleaves.now_eq, hleaves.timers_eq]
    refine h.punctual.mono (fun j hj hrun => (hleaves.jobs j hrun).mp hj) fun hall => ?_
    rcases h.punctual.place hall with hcollect | ⟨i, c, hi, hc, hlast⟩
    · exact .inl ((hleaves.jobs _ rfl).mpr hcollect)
    · exact .inr ⟨i, c, (hleaves.jobs _ rfl).mpr hi, hc, hlast⟩

/-- **A session stays on time** while its run goes on, by induction on how it goes on. Which chains
the run has then is not said; that they are on time is. -/
theorem Goes.onTime (h : s.OnTime score scheduling p set start r) (hgoes : s.Goes s') :
    ∃ r', s'.OnTime score scheduling p set start r' := by
  induction hgoes with
  | refl => exact ⟨r, h⟩
  | next _ hnext hrun ih =>
    obtain ⟨r', h'⟩ := ih
    exact h'.next? hp hp' hbuiltin hinterval hnext hrun
  | pass _ hnow hnothing ih =>
    obtain ⟨r', h'⟩ := ih
    exact ⟨r', h'.pass hnow hnothing⟩
  | meanwhile _ hleaves ih =>
    obtain ⟨r', h'⟩ := ih
    exact ⟨r', h'.meanwhile hleaves⟩

end Steps

/-! ### Beginning and end -/

/-- **A session in which no run is going on**, and nothing is left of an earlier one. A timer that
were left over could wake a chain of the new run too early. -/
structure Idle (s : Session) : Prop where
  held : s.engine.guard.held = false
  timers : s.timers = []
  jobs : ∀ j ∈ s.jobs, Job.isOfRun j = false

/-- A run that begins takes no time, and puts its chains into the queue: the first one alone in
front, or all of them behind the others. -/
theorem begin_queues (s : Session) (asked : Option Nat) (p : Project) :
    (s.begin asked p).now = s.now ∧ (s.begin asked p).timers = s.timers ∧
      ∀ j ∈ (s.begin asked p).jobs, j ∈ s.jobs ∨ ∃ i, j = .chain i := by
  unfold Session.begin
  generalize s.engine.start p s.now = begun
  obtain ⟨engine, signals, report?⟩ := begun
  dsimp only
  obtain ⟨frames, mailbox, notes, heq⟩ := hearAll_eq { s with engine } signals
  rw [heq]
  cases report? with
  | some report => cases asked <;> exact ⟨rfl, rfl, fun _ hj => .inl hj⟩
  | none =>
    -- the jobs that are new are jobs of chains
    have hchains (s' : Session) : ∀ j ∈ s'.withChains s.jobs, j ∈ s.jobs ∨ ∃ i, j = .chain i := by
      intro j hj
      unfold withChains at hj
      split at hj
      · rcases List.mem_cons.mp hj with rfl | hj
        · exact .inr ⟨0, rfl⟩
        · exact .inl hj
      · rcases List.mem_append.mp hj with hj | hj
        · exact .inl hj
        · obtain ⟨i, -, rfl⟩ := List.mem_map.mp hj
          exact .inr ⟨i, rfl⟩
    cases asked <;> exact ⟨rfl, rfl, hchains _⟩

/-- **A run begins on time.** All its chains stand at the present moment and none has ended, and the
queue has no job of a run but theirs. -/
theorem Idle.onTime {s : Session} (h : s.Idle) (p : Nat) (asked : Option Nat) {project : Project}
    (hstarts : project.program.starts ≠ []) :
    (s.begin asked project).OnTime ⟨project.program, s.engine.repertoire, s.engine.interval⟩
      s.engine.scheduling p (.set project.actors project.backdrop) s.now
      (s.engine.firstRun project s.now) := by
  have hstart := Engine.start_of_idle h.held project s.now hstarts
  have hperforming := Engine.performing_start h.held project s.now hstarts
  obtain ⟨hnow, htimers, hjobs⟩ := s.begin_queues asked project
  have hfresh : ∀ c ∈ (s.engine.firstRun project s.now).chains,
      c.clock = s.now ∧ c.time = s.now ∧ c.ending? = none := by
    intro c hc
    obtain ⟨b, -, rfl⟩ := List.mem_map.mp hc
    exact ⟨rfl, rfl, rfl⟩
  refine ⟨?_, ?_, ?_, rfl, ?_, ?_⟩
  · rw [engine_begin]
    exact hperforming
  · rw [engine_begin, hstart]
  · rw [engine_begin, hstart]
  · rw [engine_begin, hstart]
    exact Run.onTime_ofScore _ _ p _ _ _
  · rw [hnow, htimers, h.timers]
    -- clocks, jobs and timers of the new chains, who collects, and who would notice the end
    refine ⟨fun c hc => (hfresh c hc).1.le, fun i c _ hc => ?_, nofun, fun hcollect => ?_, fun hall => ?_⟩
    · exact (hfresh c (List.mem_of_getElem? hc)).2.1.ge
    · rcases hjobs _ hcollect with hbefore | ⟨i, hself⟩
      · exact nomatch h.jobs _ hbefore
      · exact nomatch hself
    · -- there is a chain, and it has only begun
      obtain ⟨b, bs, hb⟩ := List.exists_cons_of_ne_nil hstarts
      have hmem : Chain.ofStart (Run.ownerOf (.set project.actors project.backdrop) b) s.now b ∈
          (s.engine.firstRun project s.now).chains :=
        List.mem_map_of_mem (by rw [hb]; exact List.mem_cons_self)
      exact nomatch hall _ hmem

/-- Listening takes no time. -/
theorem now_hearAll (s : Session) (signals : List Signal) : (s.hearAll signals).now = s.now := by
  obtain ⟨frames, mailbox, notes, heq⟩ := s.hearAll_eq signals
  rw [heq]

/-- Neither does looking for the end of the run, whether it is there or not. -/
theorem now_conclude (s : Session) : s.conclude.now = s.now := by
  cases hresult : s.engine.conclude.2.2 with
  | none => rw [s.conclude_of_none hresult]
  | some result =>
    rw [s.conclude_of_some hresult]
    unfold answer
    split <;> exact now_hearAll { s with engine := s.engine.conclude.1 } _

/-- Nor the work of a chain: its rest is in the timer, not in the work. -/
theorem now_moveChain (s : Session) (i : Nat) (jobs : List Job) :
    (s.moveChain i jobs).now = s.now := by
  refine s.moveChain_cases i jobs (motive := fun s' => s'.now = s.now) (fun _ => rfl)
    (fun _ _ _ _ => rfl) (fun c _ _ _ => ?_) fun _ _ _ _ => now_hearAll _ _
  unfold afterChain
  split
  · split
    · rfl
    · exact now_conclude _
  · split <;> rfl

/-- **What can be done at once takes no time.** Time passes only where the queue is empty, and the
session waits for its next timer. -/
theorem now_move? {s s' : Session} (h : s.move? = some s') : s'.now = s.now := by
  unfold move? at h
  split at h
  · exact nomatch h
  · split at h
    · obtain rfl := Option.some.inj h
      exact (begin_queues _ _ _).1
    · obtain rfl := Option.some.inj h
      rfl
  · obtain rfl := Option.some.inj h
    exact now_moveChain s _ _
  · obtain rfl := Option.some.inj h
    exact now_conclude _
  · obtain rfl := Option.some.inj h
    unfold drop
    split <;> rfl

/-- **When all its chains have ended, a run has taken the total of their costs**, and it ends before
any more time passes. Somebody in the queue is about to notice the end; this is the chain that ended
last, or the job that collects, and the session's clock stands where that chain's does. -/
theorem OnTime.total {score : Score} {scheduling : Scheduling} {p : Nat} {set : Stage} {start : Nat}
    {s : Session} {r : Run} (h : s.OnTime score scheduling p set start r) {n : Nat}
    (hresult : s.engine.conclude.2.2 = some (.report ⟨.completed, n⟩)) :
    (∃ costs, List.Forall₂ (score.program.Costs p set) score.program.starts costs ∧
      s.now = start + scheduling.total costs) ∧ s.jobs ≠ [] := by
  rw [h.performing.conclude_eq.2.2, Run.result?_eq_completed] at hresult
  obtain ⟨-, -, hcompleted⟩ := hresult
  have hplace := h.punctual.place fun c hc => by
    rw [hcompleted c hc]
    rfl
  constructor
  · rw [← h.run_scheduling_eq]
    refine h.onTime.total hcompleted h.punctual.clock ?_
    rcases hplace with hcollect | ⟨i, c, hi, hc, hlast⟩
    -- side by side: some chain has just ended, and it is one of those that took longest
    · obtain ⟨hscheduling, c, hc, -, hnow⟩ := h.punctual.collect hcollect
      exact ⟨c, hc, hnow, fun hsequential => nomatch hscheduling.symm.trans hsequential⟩
    -- in a line, or the last one side by side: the chain whose job it is has just ended
    · have hmem := List.mem_of_getElem? hc
      have hnow := h.punctual.job i c hi hc
      rw [Chain.time_of_ending (hcompleted c hmem)] at hnow
      refine ⟨c, hmem, hnow, fun hsequential => ?_⟩
      -- nobody stands behind it
      have hlength : r.chains.length = i + 1 := Nat.le_antisymm
        (List.getElem?_eq_none_iff.mp (hlast hsequential)) (List.getElem?_eq_some_iff.mp hc).1
      rw [List.getLast?_eq_getElem?, hlength, Nat.add_sub_cancel, hc]
  -- an empty queue has nobody to notice the end
  · intro hnothing
    rw [hnothing] at hplace
    rcases hplace with hcollect | ⟨i, c, hi, -⟩
    · exact nomatch hcollect
    · exact nomatch hi

/-- **How long a run takes.** A run that nobody calls off and that is completed takes the sum of
what its start blocks cost, if their chains have their turns one after the other, and the largest of
it, if they have them all at once: a start block costs what the blocks cost that its chain carries
out. (A program without a start block has no run that could be completed.) -/
theorem run_takes {s s₁ s₂ : Session} (hidle : s.Idle) (hbuiltin : s.engine.repertoire = .builtin)
    {p : Nat} (hp : 1 ≤ p) (hp' : p ≤ longestWait) (hinterval : s.engine.interval = .ofMillis p)
    {asked : Option Nat} {project : Project} (hstarts : project.program.starts ≠ [])
    (hgoes : (s.begin asked project).Goes s₁) {n : Nat}
    (hends : s₁.Ends (.report ⟨.completed, n⟩) s₂) :
    ∃ costs, List.Forall₂ (project.program.Costs p (.set project.actors project.backdrop))
        project.program.starts costs ∧ s₂.now = s.now + s.engine.scheduling.total costs := by
  obtain ⟨r, h⟩ := hgoes.onTime hp hp' hbuiltin hinterval (hidle.onTime p asked hstarts)
  obtain ⟨⟨costs, hcosts, htotal⟩, hsome⟩ := h.total hends.result
  refine ⟨costs, hcosts, ?_⟩
  rw [← htotal]
  -- the end itself is a piece of work, so it takes no time
  obtain ⟨limit, hnext⟩ := hends.next
  unfold next? at hnext
  split at hnext
  · next hmove =>
    obtain rfl := Option.some.inj hnext
    exact now_move? hmove
  · next hmove => exact absurd (jobs_of_move?_eq_none hmove) hsome

/-! ### A sample -/

/-- Going on while the run does, up to some time: the schedule that a session has by itself, in a
form that can be computed. -/
def goOn (limit : Nat) : Nat → Session → Session
  | 0, s => s
  | fuel + 1, s =>
    match s.next? limit with
    | some s' => if s'.engine.run?.isSome then goOn limit fuel s' else s
    | none => s

/-- Going on by itself is one of the ways in which a session goes on. -/
theorem goes_goOn {s s' : Session} (hgoes : s.Goes s') (limit fuel : Nat) :
    s.Goes (goOn limit fuel s') := by
  induction fuel generalizing s' with
  | zero => exact hgoes
  | succ fuel ih =>
    unfold goOn
    split
    · next hnext =>
      split
      · next hrun => exact ih (hgoes.next hnext hrun)
      · exact hgoes
    · exact hgoes

/-- A session in which nothing has happened yet, with a frame every 70 milliseconds. -/
def sampleIdle (scheduling : Scheduling) : Session :=
  ofEngine (.fresh .builtin (.ofMillis 70) scheduling)

/-- The sample at its end, right before that is noticed. The fuel is more than the run needs, and
the limit later than it lasts. -/
def sampleOver (scheduling : Scheduling) : Session :=
  goOn 10000 200 ((sampleIdle scheduling).begin none .sample)

/-- **The sample takes 2220 milliseconds** with its chains one after the other, and 1160 all at
once: they cost 1160, 560, and 500 for an actor who is not on the stage. -/
theorem sample_takes :
    (∃ s costs, (sampleOver .sequential).Ends (.report ⟨.completed, 10⟩) s ∧
      List.Forall₂ (Project.sample.program.Costs 70
        (.set Project.sample.actors Project.sample.backdrop)) Project.sample.program.starts costs ∧
      s.now = 0 + costs.sum ∧ s.now = 2220) ∧
    ∃ s costs, (sampleOver .concurrent).Ends (.report ⟨.completed, 10⟩) s ∧
      List.Forall₂ (Project.sample.program.Costs 70
        (.set Project.sample.actors Project.sample.backdrop)) Project.sample.program.starts costs ∧
      s.now = 0 + costs.foldr max 0 ∧ s.now = 1160 := by
  have hidle (scheduling : Scheduling) : (sampleIdle scheduling).Idle := ⟨rfl, rfl, nofun⟩
  have hstarts : Project.sample.program.starts ≠ [] := by decide +kernel
  have hends : ∀ scheduling now,
      (sampleOver scheduling).engine.conclude.2.2 = some (.report ⟨.completed, 10⟩) →
      ((sampleOver scheduling).next? 10000).map (fun s => (s.now, s.engine.run?.isNone)) =
        some (now, true) →
      ∃ s, (sampleOver scheduling).Ends (.report ⟨.completed, 10⟩) s ∧ s.now = now := by
    intro scheduling now hresult hnext
    obtain ⟨s, hs, heq⟩ := Option.map_eq_some_iff.mp hnext
    obtain ⟨hnow, hover⟩ := Prod.mk.inj heq
    exact ⟨s, ⟨⟨10000, hs⟩, hresult, Option.isNone_iff_eq_none.mp hover⟩, hnow⟩
  constructor
  · obtain ⟨s, h, hnow⟩ := hends .sequential 2220 (by decide +kernel) (by decide +kernel)
    obtain ⟨costs, hcosts, htotal⟩ := run_takes (hidle .sequential) rfl (by decide) (by decide) rfl
      hstarts (goes_goOn .refl 10000 200) h
    exact ⟨s, costs, h, hcosts, htotal, hnow⟩
  · obtain ⟨s, h, hnow⟩ := hends .concurrent 1160 (by decide +kernel) (by decide +kernel)
    obtain ⟨costs, hcosts, htotal⟩ := run_takes (hidle .concurrent) rfl (by decide) (by decide) rfl
      hstarts (goes_goOn .refl 10000 200) h
    exact ⟨s, costs, h, hcosts, htotal, hnow⟩

end Session

end StagePlay
