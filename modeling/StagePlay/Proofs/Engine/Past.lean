import StagePlay.Proofs.Run.Outline

/-!
# The past of an engine

A run owes nothing to what happened at its engine before. Whatever runs there were, however they
ended, and whoever called for a stop or watched: a run that begins is the run of an engine that has
not run, but for its number.

* `Occurrence` — what can happen at an engine; `Engine.after` is the engine after some of it. It is
  still an engine of the same making, and its guard is free when no run is going on (`Engine.Sound`).
* `Engine.InStep` — two engines at runs of one outline, which take each turn alike.
* `Engine.perform_retells` — two idle engines of one making tell the same, turn for turn;
* `Engine.perform_unique` — one engine tells the same in any turns, one chain after the other;
* `Engine.run_forgets_past` puts these together.
-/

namespace StagePlay

/-! ### Pasts -/

/-- **What can happen at an engine.** -/
inductive Occurrence where
  /-- A run is asked for, a chain of it takes a step, or a stop is called for. -/
  | turn (t : Turn)
  /-- The run comes to its end, if its chains have. -/
  | conclude
  /-- The run is dropped. -/
  | drop
  /-- Someone else changes a figure. -/
  | poke (id : String) (c : Change)
  /-- One more observer watches. -/
  | observe (observer : Nat)
  /-- What the observers were given is taken away. -/
  | collect

namespace Engine

/-- The engine after an occurrence. -/
def undergo (e : Engine) : Occurrence → Engine
  | .turn t => (e.turn t).1
  | .conclude => e.conclude.1
  | .drop => e.abandon
  | .poke id c => (e.poke id c).1
  | .observe observer => { e with stage := e.stage.observe observer }
  | .collect => { e with stage := e.stage.collect.2 }

/-- **The engine after some occurrences.** -/
def after (e : Engine) (past : List Occurrence) : Engine := past.foldl undergo e

/-- **An engine of some making**, whose guard is held by the run that is going on, or by none. What
was made once stays: the repertoire, the interval and the order of turns are given when an engine is
made, and no occurrence changes them. -/
structure Sound (rep : Repertoire) (interval : Duration) (scheduling : Scheduling)
    (e : Engine) : Prop where
  repertoire_eq : e.repertoire = rep
  interval_eq : e.interval = interval
  scheduling_eq : e.scheduling = scheduling
  held_eq : e.guard.held = e.run?.isSome

section Sound

variable {rep : Repertoire} {interval : Duration} {scheduling : Scheduling} {e : Engine}

theorem Sound.fresh : (Engine.fresh rep interval scheduling).Sound rep interval scheduling :=
  ⟨rfl, rfl, rfl, rfl⟩

/-- A change of the stage alone. -/
theorem Sound.withStage (h : e.Sound rep interval scheduling) (stage : PublicStage) :
    { e with stage }.Sound rep interval scheduling :=
  ⟨h.repertoire_eq, h.interval_eq, h.scheduling_eq, h.held_eq⟩

/-- A run that is over, however that came about, releases the guard. -/
theorem Sound.abandon (h : e.Sound rep interval scheduling) :
    e.abandon.Sound rep interval scheduling :=
  ⟨h.repertoire_eq, h.interval_eq, h.scheduling_eq, rfl⟩

theorem Sound.conclude (h : e.Sound rep interval scheduling) :
    e.conclude.1.Sound rep interval scheduling := by
  exact e.conclude_cases (motive := fun finale => finale.1.Sound rep interval scheduling) h
    (fun _ _ _ => h.abandon) fun _ _ _ _ => h.abandon

/-- A request is ignored, is over at once, or begins a run; only the last one leaves the guard held,
and then there is a run. -/
theorem Sound.start (h : e.Sound rep interval scheduling) (p : Project) (clock : Nat) :
    (e.start p clock).1.Sound rep interval scheduling := by
  cases hheld : e.guard.held with
  | true =>
    rw [start_of_held hheld]
    exact h
  | false =>
    by_cases hstarts : p.program.starts = []
    · rw [start_of_idle_of_nothing hheld p clock hstarts]
      exact ⟨h.repertoire_eq, h.interval_eq, h.scheduling_eq, hheld.symm.trans h.held_eq⟩
    · rw [start_of_idle hheld p clock hstarts]
      exact ⟨h.repertoire_eq, h.interval_eq, h.scheduling_eq, rfl⟩

theorem Sound.step (h : e.Sound rep interval scheduling) (i : Nat) :
    (e.step i).1.Sound rep interval scheduling := by
  unfold Engine.step
  split
  · exact h
  · next r hrun =>
    have hheld : e.guard.held = true := by rw [h.held_eq, hrun]; rfl
    exact ⟨h.repertoire_eq, h.interval_eq, h.scheduling_eq, hheld⟩

theorem Sound.stop (h : e.Sound rep interval scheduling) :
    e.stop.Sound rep interval scheduling := by
  have hheld : e.stop.guard.held = e.guard.held := by
    unfold Engine.stop Guard.stop
    split <;> rfl
  exact ⟨h.repertoire_eq, h.interval_eq, h.scheduling_eq, hheld.trans h.held_eq⟩

/-- **Every occurrence** leaves an engine of the same making. One case for each kind of occurrence,
a turn being one of three. -/
theorem Sound.undergo (h : e.Sound rep interval scheduling) (o : Occurrence) :
    (e.undergo o).Sound rep interval scheduling := by
  cases o with
  | turn t =>
    cases t with
    | chain i => exact h.step i
    | stop => exact h.stop
    | ask p clock => exact h.start p clock
  | conclude => exact h.conclude
  | drop => exact h.abandon
  | poke id c =>
    change (e.poke id c).1.Sound rep interval scheduling
    unfold Engine.poke
    -- a change that meets no figure leaves the engine as it is
    split
    · exact h.withStage _
    · exact h
  | observe observer => exact h.withStage _
  | collect => exact h.withStage _

theorem Sound.after (h : e.Sound rep interval scheduling) (past : List Occurrence) :
    (e.after past).Sound rep interval scheduling := by
  induction past generalizing e with
  | nil => exact h
  | cons o past ih => exact ih (h.undergo o)

end Sound

end Engine

/-! ### Engines in step -/

namespace Engine

namespace Performing

variable {e : Engine} {r : Run}

/-- A run keeps its number, and names it only at its beginning and at its end: whatever is sent in
between is the same under any number. -/
theorem play_withRun (h : e.Performing r) (turns : List Turn) :
    (e.play turns).engine.guard.number = e.guard.number ∧
      ∀ number, (e.play turns).signals.map (.withRun number) = (e.play turns).signals := by
  -- both are kept by each step of the run
  have hnames : Run.Account fun r' _ _ signals _ =>
      r'.number = r.number ∧ ∀ number, signals.map (.withRun number) = signals := by
    refine ⟨fun {r' s off signals deeds} i hr => ⟨?_, fun number => ?_⟩, fun hr => hr⟩
    · rw [Run.number_step, hr.1]
    · rw [List.map_append, hr.2, Run.step_withRun]
  obtain ⟨r', hr', hnumber, hsignals⟩ := h.account hnames turns [] [] ⟨rfl, fun _ => rfl⟩
  exact ⟨hr'.number_eq.trans (hnumber.trans h.number_eq.symm), hsignals⟩

end Performing

/-- **Two engines at runs of one outline**, on the same stage. The outline of a run is all of it but
its number and its times, so two engines may be in step though one has run before and the other has
not. -/
structure InStep (e e' : Engine) (r r' : Run) : Prop where
  left : e.Performing r
  right : e'.Performing r'
  outline_eq : r.outline = r'.outline
  stage_eq : e.stage.stage = e'.stage.stage
  calledOff_eq : e.guard.calledOff = e'.guard.calledOff

section InStep

variable {e e' : Engine} {r r' : Run}

/-- **A turn** sends the same signals at both, and leaves them in step. -/
theorem InStep.turn (h : InStep e e' r r') (t : Turn) :
    (∃ r₁ r₁', InStep (e.turn t).1 (e'.turn t).1 r₁ r₁') ∧ (e.turn t).2 = (e'.turn t).2 := by
  cases t with
  | chain i =>
    obtain ⟨hleft, hguard, hstage⟩ := h.left.step i
    obtain ⟨hright, hguard', hstage'⟩ := h.right.step i
    have hsame := Run.step_congr h.outline_eq e.guard.calledOff e.stage.stage i
    rw [h.calledOff_eq, h.stage_eq] at hsame
    constructor
    · refine ⟨_, _, hleft, hright, ?_, ?_, ?_⟩
      · rw [h.calledOff_eq, h.stage_eq]
        exact hsame.1
      · rw [turn_chain, turn_chain, hstage, hstage', h.calledOff_eq, h.stage_eq, hsame.2]
      · rw [turn_chain, turn_chain, hguard, hguard', h.calledOff_eq]
    · rw [turn_chain, turn_chain, h.left.step_eq, h.right.step_eq, h.calledOff_eq, h.stage_eq]
      exact congrArg (fun done : Stage × List Signal => done.2) hsame.2
  | stop =>
    -- a stop calls off either run
    refine ⟨⟨r, r', ?_, ?_, h.outline_eq, ?_, ?_⟩, rfl⟩
    · rw [turn_stop, h.left.stop_eq]
      exact ⟨h.left.run_eq, h.left.held, h.left.number_eq⟩
    · rw [turn_stop, h.right.stop_eq]
      exact ⟨h.right.run_eq, h.right.held, h.right.number_eq⟩
    · rw [turn_stop, turn_stop, h.left.stop_eq, h.right.stop_eq, h.stage_eq]
    · rw [turn_stop, turn_stop, h.left.stop_eq, h.right.stop_eq]
  | ask p clock =>
    -- both ignore a request
    rw [turn_ask, turn_ask, h.left.start_eq, h.right.start_eq]
    exact ⟨⟨r, r', h⟩, rfl⟩

theorem InStep.play (h : InStep e e' r r') (turns : List Turn) :
    (∃ r₁ r₁', InStep (e.play turns).engine (e'.play turns).engine r₁ r₁') ∧
      (e.play turns).signals = (e'.play turns).signals := by
  induction turns generalizing e e' r r' with
  | nil => exact ⟨⟨r, r', h⟩, rfl⟩
  | cons t turns ih =>
    obtain ⟨⟨r₁, r₁', h₁⟩, hfirst⟩ := h.turn t
    obtain ⟨hlast, hrest⟩ := ih h₁
    refine ⟨hlast, ?_⟩
    rw [play_cons, play_cons, hfirst, hrest]

/-- A turn carries out the same block at both. -/
theorem InStep.deed?_eq (h : InStep e e' r r') (t : Turn) : e.deed? t = e'.deed? t := by
  cases t with
  | chain i =>
    unfold Engine.deed?
    dsimp only
    rw [h.left.run_eq, h.right.run_eq, h.left.isCalledOff_eq, h.right.isCalledOff_eq,
      h.calledOff_eq]
    exact Run.deed?_congr h.outline_eq _ i
  | stop | ask => rfl

theorem InStep.deeds_play (h : InStep e e' r r') (turns : List Turn) :
    (e.play turns).deeds = (e'.play turns).deeds := by
  induction turns generalizing e e' r r' with
  | nil => rfl
  | cons t turns ih =>
    obtain ⟨⟨r₁, r₁', h₁⟩, -⟩ := h.turn t
    rw [play_cons, play_cons, h.deed?_eq t, ih h₁]

/-- **Both runs end alike**, each under its own number, which the event of the end names. -/
theorem InStep.conclude (h : InStep e e' r r') :
    e.conclude.2.1 = e'.conclude.2.1.map (.withRun e.guard.number) ∧
      e.conclude.2.2 = e'.conclude.2.2 := by
  unfold Engine.conclude
  rw [h.left.run_eq, h.right.run_eq, h.left.isCalledOff_eq, h.right.isCalledOff_eq, h.calledOff_eq,
    h.left.number_eq]
  dsimp only
  rw [Run.result?_congr h.outline_eq]
  cases r'.result? e'.guard.calledOff with
  | none => exact ⟨rfl, rfl⟩
  | some result => cases result <;> exact ⟨rfl, rfl⟩

end InStep

/-- **One whole run tells what another one tells**, under a number of its own: the same frames, the
same events and notes in between, the same end, and the same stage. -/
structure Performance.Retells (number : Nat) (here there : Performance) : Prop where
  signals_eq : here.signals = there.signals.map (.withRun number)
  result?_eq : here.result? = there.result?
  stage_eq : here.engine.stage.stage = there.engine.stage.stage

/-- What names a run is not published. -/
theorem publish_withRun (number : Nat) (stage : PublicStage) (signals : List Signal) :
    publish stage (signals.map (.withRun number)) = publish stage signals := by
  induction signals generalizing stage with
  | nil => rfl
  | cons signal signals ih =>
    cases signal with
    | frame s => exact ih (stage.publish s)
    | note n => exact ih stage
    | event e => cases e <;> exact ih stage

/-- The end of a run publishes nothing. -/
theorem publish_conclude (e : Engine) (stage : PublicStage) :
    publish stage e.conclude.2.1 = stage := by
  exact e.conclude_cases (motive := fun finale => publish stage finale.2.1 = stage) rfl
    (fun _ _ _ => rfl) fun _ _ _ _ => rfl

/-- A whole run publishes what it tells, and nothing else: the stage, its edition, its viewers and
its observers are those of before with these signals published. -/
theorem stage_perform {e : Engine} (hidle : e.guard.held = false) (p : Project) (clock : Nat)
    (turns : List Turn) :
    (e.perform p clock turns).engine.stage = publish e.stage (e.perform p clock turns).signals := by
  by_cases hstarts : p.program.starts = []
  · unfold perform
    rw [start_of_idle_of_nothing hidle p clock hstarts]
    rfl
  have hstart := start_of_idle hidle p clock hstarts
  have hbegun := performing_start hidle p clock hstarts
  have hset : (e.start p clock).1.stage = publish e.stage (e.start p clock).2.1 := by
    rw [hstart]
    rfl
  obtain ⟨r, hr⟩ := hbegun.exists_play turns
  rw [perform_of_idle hidle hstarts]
  dsimp only
  rw [hr.conclude_eq.1, hbegun.stage_play turns, hset, ← publish_append,
    publish_append _ _ (conclude _).2.1,
    publish_conclude]

section Alike

variable {e e' : Engine} (hidle : e.guard.held = false) (hidle' : e'.guard.held = false)
  (hrepertoire : e.repertoire = e'.repertoire) (hinterval : e.interval = e'.interval)
  (hscheduling : e.scheduling = e'.scheduling)

include hidle hidle' hrepertoire hinterval hscheduling

/-- Two idle engines of one making begin alike. -/
theorem inStep_start {p : Project} (hstarts : p.program.starts ≠ []) (clock clock' : Nat) :
    InStep (e.start p clock).1 (e'.start p clock').1 (e.firstRun p clock) (e'.firstRun p clock') := by
  refine ⟨performing_start hidle p clock hstarts, performing_start hidle' p clock' hstarts, ?_, ?_,
    ?_⟩
  · unfold firstRun
    rw [hrepertoire, hinterval, hscheduling]
    exact Run.outline_ofScore _ _ _ _ _ _ _
  · rw [start_of_idle hidle p clock hstarts, start_of_idle hidle' p clock' hstarts]
    rfl
  · rw [start_of_idle hidle p clock hstarts, start_of_idle hidle' p clock' hstarts]

/-- **Two idle engines of one making** perform alike, whatever the time is. -/
theorem perform_retells (p : Project) (clock clock' : Nat) (turns : List Turn) :
    (e.perform p clock turns).Retells (e.guard.number + 1) (e'.perform p clock' turns) := by
  by_cases hstarts : p.program.starts = []
  · unfold perform
    rw [start_of_idle_of_nothing hidle p clock hstarts,
      start_of_idle_of_nothing hidle' p clock' hstarts]
    exact ⟨rfl, rfl, rfl⟩
  have hstart := start_of_idle hidle p clock hstarts
  have hstart' := start_of_idle hidle' p clock' hstarts
  have hbegun := inStep_start hidle hidle' hrepertoire hinterval hscheduling hstarts clock clock'
  -- at the beginning, the runs are named, each by its own number
  have hfirst : (e.start p clock).2.1 =
      (e'.start p clock').2.1.map (.withRun (e.guard.number + 1)) := by
    rw [hstart, hstart']
    rfl
  -- in between, the same is sent at both and no run is named; at the end they are named again
  obtain ⟨⟨r, r', hmiddle⟩, hsignals⟩ := hbegun.play turns
  obtain ⟨hlast, hresult⟩ := hmiddle.conclude
  obtain ⟨hnumber, hnameless⟩ := hbegun.left.play_withRun turns
  have hcount : (e.start p clock).1.guard.number = e.guard.number + 1 := by
    rw [guard_start hidle hstarts]
  rw [perform_of_idle hidle hstarts, perform_of_idle hidle' hstarts]
  refine ⟨?_, hresult, ?_⟩
  · dsimp only
    rw [List.map_append, List.map_append, hfirst, hlast, hnumber, hcount, ← hsignals, hnameless]
  · dsimp only
    rw [hmiddle.left.conclude_eq.1, hmiddle.right.conclude_eq.1, hmiddle.stage_eq]

/-- Two idle engines of one making carry out the same blocks. -/
theorem deeds_perform_eq (p : Project) (clock clock' : Nat) (turns : List Turn) :
    (e.perform p clock turns).deeds = (e'.perform p clock' turns).deeds := by
  by_cases hstarts : p.program.starts = []
  · unfold perform
    rw [start_of_idle_of_nothing hidle p clock hstarts,
      start_of_idle_of_nothing hidle' p clock' hstarts]
  have hbegun := inStep_start hidle hidle' hrepertoire hinterval hscheduling hstarts clock clock'
  rw [perform_of_idle hidle hstarts, perform_of_idle hidle' hstarts]
  exact hbegun.deeds_play turns

end Alike

/-- What is told again of what was told again is told again, under the last number. -/
theorem Performance.Retells.trans {number number' : Nat} {here between there : Performance}
    (h : here.Retells number between) (h' : between.Retells number' there) :
    here.Retells number there where
  signals_eq := by
    rw [h.signals_eq, h'.signals_eq, List.map_map]
    refine List.map_congr_left fun signal _ => ?_
    -- only events name a run, and the last name counts
    cases signal with
    | frame s => rfl
    | note n => rfl
    | event e => cases e <;> rfl
  result?_eq := h.result?_eq.trans h'.result?_eq
  stage_eq := h.stage_eq.trans h'.stage_eq

/-- **A run is determined by what it performs**, where its chains have their turns one after the
other: any turns that see it to its end without calling it off tell the same. -/
theorem perform_unique {e : Engine} (hidle : e.guard.held = false)
    (hscheduling : e.scheduling = .sequential) (p : Project) (clock : Nat) {turns turns' : List Turn}
    (hturns : .stop ∉ turns) (hturns' : .stop ∉ turns')
    (hover : (e.perform p clock turns).result?.isSome)
    (hover' : (e.perform p clock turns').result?.isSome) :
    (e.perform p clock turns).Retells (e.guard.number + 1) (e.perform p clock turns') := by
  by_cases hstarts : p.program.starts = []
  · unfold perform
    rw [start_of_idle_of_nothing hidle p clock hstarts]
    exact ⟨rfl, rfl, rfl⟩
  have hstart := start_of_idle hidle p clock hstarts
  have hbegun := performing_start hidle p clock hstarts
  have hfirst := guard_start hidle hstarts clock
  have hset := stage_start hidle hstarts clock
  -- either way the run gets so and so far
  have hway := Run.account_underway (e.firstRun p clock) (.set p.actors p.backdrop) hscheduling
  obtain ⟨r, hr, hunder⟩ := hbegun.account hway turns [] [] fun _ => ⟨0, rfl, by rw [hset]; rfl⟩
  obtain ⟨r', hr', hunder'⟩ := hbegun.account hway turns' [] [] fun _ => ⟨0, rfl, by rw [hset]; rfl⟩
  have hoff : ((e.start p clock).1.play turns).engine.guard.calledOff = false := by
    rw [hbegun.calledOff_play hturns, hfirst]
  have hoff' : ((e.start p clock).1.play turns').engine.guard.calledOff = false := by
    rw [hbegun.calledOff_play hturns', hfirst]
  obtain ⟨n, houtline, hsame⟩ := hunder hoff
  obtain ⟨n', houtline', hsame'⟩ := hunder' hoff'
  rw [perform_of_idle hidle hstarts] at hover hover' ⊢
  rw [perform_of_idle hidle hstarts]
  dsimp only at hover hover' ⊢
  rw [hr.conclude_eq.2.2, hoff, Run.result?_congr houtline] at hover
  rw [hr'.conclude_eq.2.2, hoff', Run.result?_congr houtline'] at hover'
  -- and there is nowhere else to get to
  obtain ⟨hend, hshown⟩ := Run.advance_unique hscheduling hover hover'
  obtain ⟨hstage, hsignals⟩ := Prod.mk.inj (hsame.trans (hshown.trans hsame'.symm))
  -- so the two runs are in step at their ends, and end alike
  have hthere : InStep _ _ r r' :=
    ⟨hr, hr', houtline.trans (hend.trans houtline'.symm), hstage, hoff.trans hoff'.symm⟩
  obtain ⟨hlast, hresult⟩ := hthere.conclude
  obtain ⟨hnumber, hnameless⟩ := hbegun.play_withRun turns'
  rw [List.nil_append, List.nil_append] at hsignals
  refine ⟨?_, hresult, ?_⟩
  · have hopening : (e.start p clock).2.1 =
        (e.start p clock).2.1.map (.withRun (e.guard.number + 1)) := by
      rw [hstart]
      rfl
    rw [(hbegun.play_withRun turns).1, hfirst] at hlast
    dsimp only at hlast ⊢
    rw [List.map_append, List.map_append, ← hopening, hsignals, hnameless, hlast]
  · dsimp only
    rw [hr.conclude_eq.1, hr'.conclude_eq.1, hstage]

/-- **A run does not depend on the past of its engine**, where its chains have their turns one after
the other. Let an engine have any past after which no run is going on, and let the same run be asked
for at it and at an engine that has not run. Turn for turn, both tell the same, but for the number
of the run; any turns that see the run to its end without calling it off tell the same at both; and
what is told is just what is published. -/
theorem run_forgets_past {rep : Repertoire} {interval : Duration} (past : List Occurrence)
    (hidle : ((Engine.fresh rep interval .sequential).after past).run? = none) (p : Project)
    (clock clock' : Nat) :
    let e := (Engine.fresh rep interval .sequential).after past
    let new := Engine.fresh rep interval .sequential
    (∀ turns, (e.perform p clock turns).Retells (e.guard.number + 1) (new.perform p clock' turns)) ∧
    (∀ turns turns', .stop ∉ turns → .stop ∉ turns' →
      (e.perform p clock turns).result?.isSome → (new.perform p clock' turns').result?.isSome →
      (e.perform p clock turns).Retells (e.guard.number + 1) (new.perform p clock' turns')) ∧
    (∀ turns, (e.perform p clock turns).engine.stage =
      publish e.stage (new.perform p clock' turns).signals) := by
  intro e new
  have hsound : e.Sound rep interval .sequential := Sound.fresh.after past
  have hfree : e.guard.held = false := by
    rw [hsound.held_eq]
    exact congrArg Option.isSome hidle
  have hturn : ∀ turns, (e.perform p clock turns).Retells (e.guard.number + 1)
      (new.perform p clock' turns) :=
    perform_retells hfree rfl hsound.repertoire_eq hsound.interval_eq hsound.scheduling_eq p clock
      clock'
  -- any turns to the end: first turn for turn at the two engines, then other turns at one of them
  refine ⟨hturn, fun turns turns' hturns hturns' hover hover' => ?_, fun turns => ?_⟩
  · rw [← (hturn turns').result?_eq] at hover'
    exact (perform_unique hfree hsound.scheduling_eq p clock hturns hturns' hover hover').trans
      (hturn turns')
  · rw [stage_perform hfree, (hturn turns).signals_eq, publish_withRun]

/-- A run that is stopped in the middle of a body, a stop and an empty program while nothing goes on,
a run that is dropped with another one asked for meanwhile, and someone who watches it all. -/
def samplePast : List Occurrence :=
  .observe 0 :: .turn (.ask .sample 0) :: List.replicate 7 (.turn (.chain 0)) ++
    [.turn .stop, .turn (.chain 0), .conclude, .turn .stop, .turn (.ask ⟨.ofBlocks [], [], none⟩ 3),
      .turn (.ask .sample 5), .turn (.chain 0), .turn (.ask .sample 6), .turn (.chain 0), .drop,
      .poke "Cat" (.toHeading 90.0), .turn .stop]

theorem samplePast_forgotten :
    let e := (Engine.fresh .builtin (.ofMillis 500) .sequential).after samplePast
    let turns := List.replicate 30 (.chain 0) ++ List.replicate 9 (.chain 1)
      ++ List.replicate 9 (.chain 2)
    let turns' := .chain 2 :: turns
    e.guard = ⟨false, 3, false⟩ ∧
      (e.perform .sample 7 turns').result? = some (.report ⟨.completed, 10⟩) ∧
      (e.perform .sample 7 turns').Retells 4
        ((Engine.fresh .builtin (.ofMillis 500) .sequential).perform .sample 0 turns) := by
  intro e turns turns'
  -- three runs have acquired the guard, the last one was dropped
  have hguard : e.guard = ⟨false, 3, false⟩ := by decide +kernel
  have hidle : e.run? = none := Option.isNone_iff_eq_none.mp (by decide +kernel)
  have hover : (e.perform .sample 7 turns').result? = some (.report ⟨.completed, 10⟩) := by
    decide +kernel
  have hends : ((Engine.fresh .builtin (.ofMillis 500) .sequential).perform .sample 0
      turns).result?.isSome := by decide +kernel
  have hstop : .stop ∉ turns := by simp [turns]
  have hstop' : .stop ∉ turns' := by simp [turns', turns]
  obtain ⟨-, hany, -⟩ := run_forgets_past samplePast hidle .sample 7 0
  have hretells := hany turns' turns hstop' hstop (by rw [hover]; rfl) hends
  rw [hguard] at hretells
  exact ⟨hguard, hover, hretells⟩

end Engine

end StagePlay
