import StagePlay.Proofs.Engine.Exclusion

/-!
# What is told of the runs of an engine

Many may call on one engine for a run, at any time and while others are in the middle of their
calls. A call that acquires the guard sets the stage, says that its run has begun, leads it to its
end and tells how it ended, and only then gives the guard back; anyone else may act between any two
of these. A `Chronicle` is a crowd of callers with all that has been said, as it was said, and with
what each call that was not ignored has said of it.

* `Chronicle.Step` is what one of the callers does next. What it says is what `Engine.start`,
  `Engine.step` and `Engine.conclude` say, and `Chronicle.steps_turn`, `Chronicle.steps_conclude`
  show that these are made of such steps.
* `Chronicle.Inv` is the invariant. A call that is not over yet holds the guard, so it is the last
  one, and whatever is said is said by it (`Inv.last`).
* `Chronicle.Segment` is what a call has said by its end.

`Chronicle.protocol_of_steps` puts them together: one call after the other, each with its own
segment.
-/

namespace StagePlay

/-- The events among some signals, in their order. Frames are left out: they are sent on another
way, and the protocol of a run is about its events. -/
def tidings (signals : List Signal) : List (Event Nat) :=
  signals.filterMap fun
    | .event e => some e
    | _ => none

@[simp] theorem tidings_nil : tidings [] = [] := rfl

@[simp] theorem tidings_append (l l' : List Signal) : tidings (l ++ l') = tidings l ++ tidings l' :=
  List.filterMap_append

/-- The event that a block of a kind without a routine is carried out. -/
def announce (unknown : String × String) : Event Nat := .unknownOperation unknown.1 unknown.2

/-! ### What a step says -/

/-- Some signals whose events are announcements, so that nothing among them says that a run begins
or ends. -/
def Announces (signals : List Signal) : Prop := tidings signals = (unknowns signals).map announce

theorem Announces.nil : Announces [] := rfl

theorem Announces.append {l l' : List Signal} (h : Announces l) (h' : Announces l') :
    Announces (l ++ l') := by
  unfold Announces at *
  rw [tidings_append, unknowns_append, List.map_append, h, h']

theorem Scene.change_announces (s : Scene) (owner : Option String) (c : Change) :
    Announces (s.change owner c).2 := by
  unfold change
  split <;> rfl

theorem Scene.performAll_announces (s : Scene) (owner : Option String) (b : Block)
    (es : List Effect) : Announces (s.performAll owner b es).2 := by
  induction es generalizing s with
  | nil => exact .nil
  | cons e es ih =>
    refine Announces.append ?_ (ih (s.perform owner b e).1)
    -- only an announcement says anything
    cases e with
    | change c => exact s.change_announces owner c
    | announce kind => rfl
    | note => rfl

/-- **A step of a chain says nothing but announcements.** What it shows of the stage are frames, and
the beginning and the end of a run are told by the call that leads it. -/
theorem Chain.step_announces (c : Chain) (score : Score) (scene : Scene) :
    Announces (c.step score scene).2.2 := by
  cases hcalled : scene.cancelled with
  | true =>
    rw [step_of_cancelled hcalled]
    exact .nil
  | false => ?_
  refine c.step_cases hcalled (motive := fun r _ => Announces r.2.2)
    ?ended ?pause ?frame ?finish ?enter ?dangling ?found ?spent ?round
  -- the two steps that send anything at all
  case frame => exact fun start tween k m _ => scene.change_announces c.owner _
  case enter => exact fun b ts _ _ => Scene.performAll_announces _ c.owner b _
  all_goals intros; exact .nil

theorem Run.step_announces (r : Run) (off : Bool) (s : Stage) (i : Nat) :
    Announces (r.step off s i).2.2 :=
  r.step_cases off s i (motive := fun after _ => Announces after.2.2) (fun _ => .nil)
    fun _ c _ _ _ _ _ _ => c.step_announces r.score _

/-- A run that ends with a report has been completed or stopped. The other outcomes belong to calls
that led no run: that there was nothing to start, and that they were ignored. -/
theorem Run.outcome_of_result? {r : Run} {off : Bool} {report : Report}
    (h : r.result? off = some (.report report)) :
    report.outcome = .completed ∨ report.outcome = .stopped := by
  have hreport : ∀ whole, r.report whole = .report report →
      report.outcome = .completed ∨ report.outcome = .stopped := by
    intro whole hwhole
    unfold Run.report at hwhole
    obtain rfl := Result.report.inj hwhole
    cases whole
    · exact Or.inr rfl
    · exact Or.inl rfl
  unfold result? at h
  split at h
  · split at h
    · exact hreport _ (Option.some.inj h)
    · split at h
      · exact absurd h (by simp)
      · exact absurd h (by simp)
      · exact hreport _ (Option.some.inj h)
  · split at h
    · exact hreport _ (Option.some.inj h)
    · exact absurd h (by simp)

/-! ### Calls -/

/-- **How far a call for a run has come**, from the time it acquired the guard. Between any two
phases other callers may act, so what the call is about to do is kept in the phase: how its run is
to begin, and then the run itself. -/
inductive Phase where
  /-- It is to begin in a certain way. -/
  | admitted (begun : Engine × List Signal × Option Report)
  /-- The stage is set for that. -/
  | set (begun : Engine × List Signal × Option Report)
  /-- The chains of its run have their turns. -/
  | playing (r : Run)
  /-- All is said, and this is the report, with the stage of that time. -/
  | told (report : Report) (stage : Stage)
  /-- The run broke down, and leaves no report. -/
  | broken

/-- Whether nothing is left to do but to give the guard back. -/
def Phase.isOver : Phase → Bool
  | told _ _ | broken => true
  | admitted _ | set _ | playing _ => false

/-- **A call for a run that was not ignored**, with all that it has said. The number is that of its
token, by which it gives the guard back. -/
structure Call where
  number : Nat
  project : Project
  phase : Phase
  said : List (Event Nat)

/-- Whether a move belongs to a stop. -/
def Move.isOfStop : Move → Bool
  | looked _ _ _ | calledOff _ _ | left _ => true
  | acquired _ | ignored | worked | released _ => false

/-- **The callers of an engine**, the calls for a run in the order in which they acquired the guard,
and all that was said. What was said is recorded twice, as a whole and call by call; that the two
records agree is what the protocol says. -/
structure Chronicle where
  crowd : Crowd
  calls : List Call
  events : List (Event Nat)

namespace Chronicle

/-- An engine on which nobody has called. -/
def ofEngine (e : Engine) : Chronicle := ⟨.ofEngine e, [], []⟩

/-- **A call comes to another phase** and leaves the engine in some state, with some signals. -/
def goOn (c : Chronicle) (before : List Call) (call : Call) (after : List Call) (e : Engine)
    (signals : List Signal) (phase : Phase) : Chronicle where
  crowd := { c.crowd with engine := e }
  calls := before ++ { call with phase, said := call.said ++ tidings signals } :: after
  events := c.events ++ tidings signals

/-- The engine of a chronicle. -/
def engine (c : Chronicle) : Engine := c.crowd.engine

/-- The engine at the run of a call. -/
def engineAt (c : Chronicle) (r : Run) : Engine := { c.engine with run? := some r }

/-- **What a caller can do next.** Any call may go on, also while others do; which of them does is
not determined. Each rule says by its premises in which phase the call must be, and uses the
functions of the engine for what it does and says. -/
inductive Step (c : Chronicle) : Chronicle → Prop where
  /-- A call finds the guard free and takes it. It holds it from now on. -/
  | acquire (p : Project) (clock : Nat) {g : Guard} (hlock : c.crowd.stopping = none)
      (hg : c.engine.guard.acquire? = some g) :
      Step c { c with
        crowd := { c.crowd.withGuard g with holders := g.number :: c.crowd.holders }
        calls := c.calls ++ [⟨g.number, p, .admitted (c.engine.start p clock), []⟩] }
  /-- A call finds the guard taken and is ignored. -/
  | ignore (p : Project) (clock : Nat) (hlock : c.crowd.stopping = none)
      (hg : c.engine.guard.acquire? = none) :
      Step c { c with
        crowd := { c.crowd with engine := (c.engine.start p clock).1 }
        events := c.events ++ tidings (c.engine.start p clock).2.1 }
  /-- The stage is set for the run. -/
  | set {before call after begun} (hcalls : c.calls = before ++ call :: after)
      (hphase : call.phase = .admitted begun) :
      Step c (c.goOn before call after { c.engine with stage := begun.1.stage } [] (.set begun))
  /-- There was nothing to start, and the call says so. -/
  | tell {before call after e signals report} (hcalls : c.calls = before ++ call :: after)
      (hphase : call.phase = .set (e, signals, some report)) :
      Step c (c.goOn before call after c.engine signals (.told report c.engine.stage.stage))
  /-- The call says that its run has begun. -/
  | begin {before call after e signals r} (hcalls : c.calls = before ++ call :: after)
      (hphase : call.phase = .set (e, signals, none)) (hr : e.run? = some r) :
      Step c (c.goOn before call after (c.engineAt r) signals (.playing r))
  /-- A chain of the run takes a step, and what it says is said by the call. -/
  | chain {before call after r e signals r'} (i : Nat) (hcalls : c.calls = before ++ call :: after)
      (hphase : call.phase = .playing r) (hstep : (c.engineAt r).step i = (e, signals))
      (hr' : e.run? = some r') : Step c (c.goOn before call after e signals (.playing r'))
  /-- The run has ended, and the call says how. -/
  | finish {before call after r e signals report} (hcalls : c.calls = before ++ call :: after)
      (hphase : call.phase = .playing r)
      (hend : (c.engineAt r).conclude = (e, signals, some (.report report))) :
      -- the guard is given back only after that
      Step c (c.goOn before call after { e with guard := c.engine.guard } signals
        (.told report e.stage.stage))
  /-- The run has broken down, and nobody says anything of it. -/
  | breakDown {before call after r e signals} (hcalls : c.calls = before ++ call :: after)
      (hphase : call.phase = .playing r)
      (hend : (c.engineAt r).conclude = (e, signals, some .broken)) :
      Step c (c.goOn before call after { e with guard := c.engine.guard } signals .broken)
  /-- A call that is over gives the guard back. -/
  | leave {call} (hcall : call ∈ c.calls) (hover : call.phase.isOver = true)
      (hn : call.number ∈ c.crowd.holders) :
      Step c { c with crowd :=
        { c.crowd.withGuard c.engine.guard.release with
          holders := c.crowd.holders.erase call.number } }
  /-- A move of someone who stops the engine. A stop takes several of them. -/
  | stop {move crowd} (hmove : move.isOfStop = true) (hstep : c.crowd.Step move crowd) :
      Step c { c with crowd }

/-- **What callers do in any order.** -/
inductive Steps (c : Chronicle) : Chronicle → Prop where
  | refl : Steps c c
  | step {c' c'' : Chronicle} (hsteps : Steps c c') (hstep : c'.Step c'') : Steps c c''

/-! ### What a call says -/

/-- **What a call has said by its end**, with its report and the stage of that time: either that
there was nothing to start, or the beginning of its run, an announcement for each block of an
unknown kind, and the end of its run. Blocks that are declared inside others do not start anything.
-/
inductive Segment (p : Project) (number : Nat) : Report → Stage → List (Event Nat) → Prop where
  | nothing (hstarts : ∀ b ∈ p.program.roots, b.operation ≠ .start) :
      Segment p number ⟨.noStartBlock, 0⟩ (.set p.actors p.backdrop) [.noStartBlock]
  | run {report : Report} {s : Stage} (hstarts : ∃ b ∈ p.program.roots, b.operation = .start)
      (unknown : List (String × String))
      (houtcome : report.outcome = .completed ∨ report.outcome = .stopped) :
      Segment p number report s
        (.runStarted number :: unknown.map announce ++ [.runFinished number report.outcome])

/-- **What a call has said while its run goes on**: a segment without its last event. -/
def Opening (p : Project) (number : Nat) (said : List (Event Nat)) : Prop :=
  p.program.starts ≠ [] ∧
    ∃ unknown : List (String × String), said = .runStarted number :: unknown.map announce

/-- **How a call is to begin.** This was computed when the guard was acquired; the clauses say what
the call will find when it comes to use it. -/
structure Begins (p : Project) (number : Nat) (begun : Engine × List Signal × Option Report) :
    Prop where
  stage_eq : begun.1.stage.stage = .set p.actors p.backdrop
  nothing : p.program.starts = [] →
    begun.2 = ([.frame (.set p.actors p.backdrop), .event .noStartBlock], some ⟨.noStartBlock, 0⟩)
  run : p.program.starts ≠ [] →
    begun.2 = ([.frame (.set p.actors p.backdrop), .event (.runStarted number)], none) ∧
      ∀ r, begun.1.run? = some r → r.number = number

/-- **A call as it should be**, on a stage in some state: nothing is said before the run begins,
then the beginning of a segment with the number of the call, and by its end a whole segment. -/
def Proper (s : Stage) (call : Call) : Prop :=
  match call.phase with
  | .admitted begun => call.said = [] ∧ Begins call.project call.number begun
  | .set begun => call.said = [] ∧ Begins call.project call.number begun ∧
      s = .set call.project.actors call.project.backdrop
  | .playing r => r.number = call.number ∧ Opening call.project call.number call.said
  | .told report stage => Segment call.project call.number report stage call.said
  | .broken => Opening call.project call.number call.said

/-- A call that is over does not mind what becomes of the stage. -/
theorem Proper.of_isOver {s s' : Stage} {call : Call} (h : Proper s call)
    (hover : call.phase.isOver = true) : Proper s' call := by
  unfold Proper at *
  cases hphase : call.phase with
  | told | broken => simpa only [hphase] using h
  | admitted | set | playing =>
    rw [hphase] at hover
    exact absurd hover Bool.false_ne_true

/-- A call that finds the engine idle begins as it should, by what `Engine.start` does then. -/
theorem begins_start {e : Engine} (hidle : e.guard.held = false) (p : Project) (clock : Nat) :
    Begins p (e.guard.number + 1) (e.start p clock) where
  stage_eq := by
    by_cases hstarts : p.program.starts = []
    · rw [Engine.start_of_idle_of_nothing hidle p clock hstarts]
      rfl
    · rw [Engine.start_of_idle hidle p clock hstarts]
      rfl
  nothing hstarts := by rw [Engine.start_of_idle_of_nothing hidle p clock hstarts]
  run hstarts := by
    rw [Engine.start_of_idle hidle p clock hstarts]
    refine ⟨rfl, fun r hr => ?_⟩
    rw [← Option.some.inj hr]
    rfl

/-! ### Calls that go on as they should -/

section Proper

variable {s s' : Stage} {call : Call} {r : Run} {signals : List Signal}

/-- A call that sets the stage says nothing yet. -/
theorem Proper.set {begun : Engine × List Signal × Option Report} (h : Proper s call)
    (hphase : call.phase = .admitted begun) :
    Proper begun.1.stage.stage { call with phase := .set begun, said := call.said ++ tidings [] } := by
  rw [Proper, hphase] at h
  refine ⟨?_, h.2, h.2.stage_eq⟩
  rw [tidings_nil, List.append_nil]
  exact h.1

/-- **A call that has its report at once** says that there was nothing to start. -/
theorem Proper.tell {e : Engine} {report : Report} (h : Proper s call)
    (hphase : call.phase = .set (e, signals, some report)) :
    Proper s' { call with phase := .told report s, said := call.said ++ tidings signals } := by
  rw [Proper, hphase] at h
  obtain ⟨hsaid, hbegins, hstage⟩ := h
  -- had there been anything to start, there would be no report yet
  have hstarts : call.project.program.starts = [] := Decidable.byContradiction fun hstarts =>
    absurd (congrArg Prod.snd (hbegins.run hstarts).1) (by simp)
  obtain ⟨rfl, hreport⟩ := Prod.mk.inj (hbegins.nothing hstarts)
  obtain rfl := Option.some.inj hreport
  change Segment _ _ _ _ (call.said ++ _)
  rw [hsaid, hstage]
  exact .nothing (by simpa [Program.starts] using hstarts)

/-- **A call that has none** says that its run has begun. -/
theorem Proper.begin {e : Engine} (h : Proper s call)
    (hphase : call.phase = .set (e, signals, none)) (hr : e.run? = some r) :
    Proper s' { call with phase := .playing r, said := call.said ++ tidings signals } := by
  rw [Proper, hphase] at h
  obtain ⟨hsaid, hbegins, -⟩ := h
  -- had there been nothing to start, there would be a report
  have hstarts : call.project.program.starts ≠ [] := fun hstarts =>
    absurd (congrArg Prod.snd (hbegins.nothing hstarts)) (by simp)
  obtain ⟨hsignals, hnumber⟩ := hbegins.run hstarts
  obtain ⟨rfl, -⟩ := Prod.mk.inj hsignals
  refine ⟨hnumber r hr, hstarts, [], ?_⟩
  change call.said ++ _ = _
  rw [hsaid]
  rfl

/-- **A step of its run** adds to what the call has announced so far. -/
theorem Proper.chain (h : Proper s call) (hphase : call.phase = .playing r) (off : Bool)
    (set : Stage) (i : Nat) :
    Proper s' { call with
      phase := .playing (r.step off set i).1
      said := call.said ++ tidings (r.step off set i).2.2 } := by
  rw [Proper, hphase] at h
  obtain ⟨hnumber, hstarts, unknown, hsaid⟩ := h
  refine ⟨(r.number_step _ _ _).trans hnumber, hstarts,
    unknown ++ unknowns (r.step off set i).2.2, ?_⟩
  change call.said ++ _ = _
  rw [hsaid, r.step_announces, List.map_append, List.cons_append]

/-- **A call whose run has ended** says so. -/
theorem Proper.finish {off : Bool} {report : Report} (h : Proper s call)
    (hphase : call.phase = .playing r) (hresult : r.result? off = some (.report report))
    (hsignals : tidings signals = [.runFinished r.number report.outcome]) :
    Proper s' { call with phase := .told report s, said := call.said ++ tidings signals } := by
  rw [Proper, hphase] at h
  obtain ⟨hnumber, hstarts, unknown, hsaid⟩ := h
  change Segment _ _ _ _ (call.said ++ _)
  rw [hsaid, hsignals, hnumber]
  refine .run ?_ unknown (Run.outcome_of_result? hresult)
  simpa [Program.starts] using hstarts

/-- A call whose run has broken down says no more. -/
theorem Proper.breakDown (h : Proper s call) (hphase : call.phase = .playing r)
    (hsignals : tidings signals = []) :
    Proper s' { call with phase := .broken, said := call.said ++ tidings signals } := by
  rw [Proper, hphase] at h
  change Opening _ _ (call.said ++ _)
  rw [hsignals, List.append_nil]
  exact h.2

end Proper

/-! ### The invariant -/

/-- **What holds after any steps** at an engine on which nobody had called. `active` and the
invariant of the crowd together say that there is one call at most that is not over: whoever is not
over holds the guard, and the guard has one holder at most. All the rest follows from this, for a
step of a call can then only be a step of the last one. -/
structure Inv (c : Chronicle) : Prop where
  crowd : ∃ moves, Crowd.Inv moves c.crowd
  /-- There is a call for each time that the guard was acquired, in that order. -/
  numbers_eq : c.calls.map Call.number = List.range' 1 c.engine.guard.number
  /-- A call that is not over holds the guard. -/
  active : ∀ call ∈ c.calls, call.phase.isOver = false → call.number ∈ c.crowd.holders
  /-- The run of the engine is that of a call. -/
  run_eq : ∀ r, c.engine.run? = some r → ∃ call ∈ c.calls, call.phase = .playing r
  /-- What was said was said by one call after the other. -/
  events_eq : c.events = c.calls.flatMap Call.said
  proper : ∀ call ∈ c.calls, Proper c.engine.stage.stage call

theorem Inv.ofEngine {e : Engine} (he : e.guard = .fresh) (hrun : e.run? = none) :
    Inv (.ofEngine e) where
  crowd := ⟨[], .ofEngine he⟩
  numbers_eq := by
    change [] = List.range' 1 e.guard.number
    rw [he]
    rfl
  active _ h := nomatch h
  run_eq r hr := absurd (hrun.symm.trans hr) (by simp)
  events_eq := rfl
  proper _ h := nomatch h

section Inv

variable {c : Chronicle} {before after : List Call} {call : Call}

/-- The guard is held by the call whose token is in place, or by none. -/
theorem Inv.number_of_mem_holders (h : Inv c) {n : Nat} (hn : n ∈ c.crowd.holders) :
    n = c.engine.guard.number := by
  obtain ⟨moves, hcrowd⟩ := h.crowd
  rw [hcrowd.holders_eq] at hn
  split at hn
  · exact List.mem_singleton.mp hn
  · exact absurd hn List.not_mem_nil

/-- **The call that has the token in place is the last one**, and all others are over. Numbers are
given out in order, the guard has the greatest of them, and who is not over holds the guard. -/
theorem Inv.last (h : Inv c) (hcalls : c.calls = before ++ call :: after)
    (hnumber : call.number = c.engine.guard.number) :
    after = [] ∧ ∀ call' ∈ before, call'.phase.isOver = true := by
  -- the numbers of the calls go up to that of the guard
  have hnumbers := h.numbers_eq
  have hordered : (c.calls.map Call.number).Pairwise (· < ·) := by
    rw [hnumbers]
    exact List.pairwise_lt_range' 1
  rw [hcalls, List.map_append, List.map_cons, List.pairwise_append, List.pairwise_cons] at hordered
  have hle : ∀ call' ∈ c.calls, call'.number ≤ c.engine.guard.number := by
    intro call' hcall'
    have hmem := List.mem_map_of_mem (f := Call.number) hcall'
    rw [hnumbers, List.mem_range'_1] at hmem
    exact Nat.lt_succ_iff.mp (by omega)
  constructor
  · -- no number comes after that of the guard
    refine List.eq_nil_iff_forall_not_mem.mpr fun call' hcall' => ?_
    have hlt := hordered.2.1.1 _ (List.mem_map_of_mem hcall')
    have hle' := hle call' (by rw [hcalls]; simp [hcall'])
    omega
  · -- and whoever holds the guard has its number
    intro call' hcall'
    cases hactive : call'.phase.isOver with
    | true => rfl
    | false =>
      have hholds := h.active call' (by rw [hcalls]; simp [hcall']) hactive
      have hlt := hordered.2.2 _ (List.mem_map_of_mem hcall') _ List.mem_cons_self
      have heq := h.number_of_mem_holders hholds
      omega

/-- While one call is not over, the run of the engine is its own: it belongs to some call, and all
others are over. -/
theorem Inv.phase_of_run? (h : Inv c) (hcalls : c.calls = before ++ call :: after)
    (hactive : call.phase.isOver = false) {r : Run} (hr : c.engine.run? = some r) :
    call.phase = .playing r := by
  have hholds := h.active call (by rw [hcalls]; simp) hactive
  obtain ⟨rfl, hbefore⟩ := h.last hcalls (h.number_of_mem_holders hholds)
  obtain ⟨call', hcall', hphase⟩ := h.run_eq r hr
  rw [hcalls, List.mem_append, List.mem_singleton] at hcall'
  rcases hcall' with hcall' | rfl
  · have hover := hbefore call' hcall'
    rw [hphase] at hover
    exact absurd hover Bool.false_ne_true
  · exact hphase

/-- **A call that goes on** keeps what holds, if it leaves the guard alone and stays as it should
be. It is the last one of all calls, so what it says comes after everything that was said before. -/
theorem Inv.goOn (h : Inv c) (hcalls : c.calls = before ++ call :: after)
    (hactive : call.phase.isOver = false) {e : Engine} {signals : List Signal} {phase : Phase}
    (hguard : e.guard = c.engine.guard) (hrun : ∀ r, e.run? = some r → phase = .playing r)
    (hproper : Proper e.stage.stage { call with phase, said := call.said ++ tidings signals }) :
    Inv (c.goOn before call after e signals phase) := by
  have hholds := h.active call (by rw [hcalls]; simp) hactive
  obtain ⟨rfl, hbefore⟩ := h.last hcalls (h.number_of_mem_holders hholds)
  obtain ⟨moves, hcrowd⟩ := h.crowd
  refine ⟨⟨_, hcrowd.step (.work hguard)⟩, ?numbers_eq, ?active, ?run_eq, ?events_eq, ?proper⟩
  case numbers_eq =>
    -- the call keeps its number
    have hnumbers := h.numbers_eq
    rw [hcalls, ← hguard, List.map_append] at hnumbers
    rw [Chronicle.goOn, List.map_append]
    exact hnumbers
  case active =>
    -- the calls before it are over, and it holds the guard itself
    intro call' hcall' hactive'
    rcases List.mem_append.mp hcall' with hcall' | hcall'
    · exact absurd (hbefore call' hcall') (Bool.eq_false_iff.mp hactive')
    · rw [List.mem_singleton.mp hcall']
      exact hholds
  case run_eq =>
    intro r hr
    exact ⟨_, List.mem_append_right _ List.mem_cons_self, hrun r hr⟩
  case events_eq =>
    -- what it says is appended to its own words, and they are the last ones
    have hevents := h.events_eq
    rw [hcalls, List.flatMap_append, List.flatMap_singleton] at hevents
    rw [Chronicle.goOn, hevents, List.flatMap_append, List.flatMap_singleton, List.append_assoc]
  case proper =>
    -- the stage may have changed, but the calls before do not mind
    intro call' hcall'
    rcases List.mem_append.mp hcall' with hcall' | hcall'
    · exact (h.proper call' (by rw [hcalls]; simp [hcall'])).of_isOver (hbefore call' hcall')
    · rw [List.mem_singleton.mp hcall']
      exact hproper

/-- A call that acquires the guard finds all others over. -/
theorem Inv.acquire (h : Inv c) (p : Project) (clock : Nat) (hlock : c.crowd.stopping = none)
    (hidle : c.engine.guard.held = false) :
    Inv { c with
      crowd := { c.crowd.withGuard ⟨true, c.engine.guard.number + 1, false⟩ with
        holders := (c.engine.guard.number + 1) :: c.crowd.holders }
      calls := c.calls ++
        [⟨c.engine.guard.number + 1, p, .admitted (c.engine.start p clock), []⟩] } := by
  obtain ⟨moves, hcrowd⟩ := h.crowd
  -- the guard is free, so nobody holds it, so nobody is in the middle of a call
  have hnobody : c.crowd.holders = [] := by
    rw [hcrowd.holders_eq, if_neg]
    exact Bool.eq_false_iff.mp hidle
  have hover : ∀ call ∈ c.calls, call.phase.isOver = true := by
    intro call hcall
    cases hactive : call.phase.isOver with
    | true => rfl
    | false =>
      have hholds := h.active call hcall hactive
      rw [hnobody] at hholds
      exact absurd hholds List.not_mem_nil
  refine ⟨⟨_, hcrowd.acquire hlock hidle⟩, ?numbers_eq, ?active, ?run_eq, ?events_eq, ?proper⟩
  case numbers_eq =>
    -- the new call has the next number
    rw [List.map_append, h.numbers_eq]
    change _ = List.range' 1 (c.engine.guard.number + 1)
    rw [List.range'_1_concat, Nat.add_comm 1]
    rfl
  case active =>
    intro call hcall hactive
    rcases List.mem_append.mp hcall with hcall | hcall
    · exact absurd (hover call hcall) (Bool.eq_false_iff.mp hactive)
    · rw [List.mem_singleton.mp hcall]
      exact List.mem_cons_self
  case run_eq =>
    -- its run is not there yet
    intro r hr
    obtain ⟨call, hcall, hphase⟩ := h.run_eq r hr
    exact ⟨call, List.mem_append_left _ hcall, hphase⟩
  case events_eq =>
    -- the new call has not said anything
    rw [List.flatMap_append, ← h.events_eq]
    exact (List.append_nil _).symm
  case proper =>
    -- the calls before it are over, and the new one is yet to begin
    intro call hcall
    rcases List.mem_append.mp hcall with hcall | hcall
    · exact (h.proper call hcall).of_isOver (hover call hcall)
    · rw [List.mem_singleton.mp hcall]
      exact ⟨rfl, begins_start hidle p clock⟩

/-- A call that gives the guard back leaves nobody who holds it. -/
theorem Inv.leave (h : Inv c) (hcall : call ∈ c.calls) (hover : call.phase.isOver = true)
    (hn : call.number ∈ c.crowd.holders) :
    Inv { c with crowd :=
      { c.crowd.withGuard c.engine.guard.release with
        holders := c.crowd.holders.erase call.number } } := by
  obtain ⟨moves, hcrowd⟩ := h.crowd
  obtain ⟨before, after, hcalls⟩ := List.append_of_mem hcall
  obtain ⟨rfl, hbefore⟩ := h.last hcalls (h.number_of_mem_holders hn)
  refine ⟨⟨_, hcrowd.step (.release hn)⟩, h.numbers_eq, ?_, h.run_eq, h.events_eq, h.proper⟩
  intro call' hcall' hactive
  rw [hcalls, List.mem_append, List.mem_singleton] at hcall'
  -- no call is left that is not over: the others were, and so is the one that leaves
  rcases hcall' with hcall' | rfl
  · exact absurd (hbefore call' hcall') (Bool.eq_false_iff.mp hactive)
  · exact absurd hover (Bool.eq_false_iff.mp hactive)

/-- A stop says nothing, and leaves the calls and the stage alone. -/
theorem Inv.stop (h : Inv c) {move : Move} {crowd : Crowd} (hmove : move.isOfStop = true)
    (hstep : c.crowd.Step move crowd) : Inv { c with crowd } := by
  obtain ⟨moves, hcrowd⟩ := h.crowd
  -- a stop touches the lock of those who stop and the flag of the guard
  have hsame : crowd.holders = c.crowd.holders ∧
      crowd.engine.guard.number = c.crowd.engine.guard.number ∧
      crowd.engine.run? = c.crowd.engine.run? ∧ crowd.engine.stage = c.crowd.engine.stage := by
    cases hstep with
    | look | callOff | leave => exact ⟨rfl, rfl, rfl, rfl⟩
    | acquire | ignore | work | release => exact absurd hmove Bool.false_ne_true
  obtain ⟨hholders, hnumber, hrun, hstage⟩ := hsame
  refine ⟨⟨_, hcrowd.step hstep⟩, ?_, ?_, ?_, h.events_eq, ?_⟩
  · exact h.numbers_eq.trans (congrArg (List.range' 1) hnumber.symm)
  · dsimp only
    rw [hholders]
    exact h.active
  · exact fun r hr => h.run_eq r (hrun.symm.trans hr)
  · intro call hcall
    change Proper crowd.engine.stage.stage call
    rw [hstage]
    exact h.proper call hcall

/-- What a step of a chain does to the engine at the run of a call, with the flag of the guard as
whatever it is at that time. -/
theorem engineAt_step (c : Chronicle) (r : Run) (i : Nat) :
    ∃ off, (c.engineAt r).step i = ({ c.engine with
      run? := some (r.step off c.engine.stage.stage i).1
      stage := Engine.publish c.engine.stage (r.step off c.engine.stage.stage i).2.2 },
        (r.step off c.engine.stage.stage i).2.2) := ⟨_, rfl⟩

/-- What the end of a run does to the engine, and what is said then: how the run has ended, or
nothing if it broke down. -/
theorem engineAt_conclude {c : Chronicle} {r : Run} {e : Engine} {signals : List Signal}
    {result : Result} (h : (c.engineAt r).conclude = (e, signals, some result)) :
    e = c.engine.abandon ∧ (∃ off, r.result? off = some result) ∧ tidings signals =
      match result with
      | .report report => [.runFinished r.number report.outcome]
      | .broken => [] := by
  obtain ⟨r', hr', hresult, heq⟩ := (c.engineAt r).conclude_of_some (by rw [h])
  obtain rfl : r = r' := Option.some.inj hr'
  obtain ⟨rfl, rfl, -⟩ := Prod.mk.inj (h.symm.trans heq) |>.imp id Prod.mk.inj
  refine ⟨rfl, ⟨_, hresult⟩, ?_⟩
  cases result <;> rfl

/-- **A step of any caller** keeps what holds. The steps of a call that holds the guard are those of
the last call (`Inv.goOn`); besides these, calls come (`Inv.acquire`) and go (`Inv.leave`), are
ignored, or stop the engine. -/
theorem Inv.step (h : Inv c) {c' : Chronicle} (hstep : c.Step c') : Inv c' := by
  have hproper : ∀ {before call after}, c.calls = before ++ call :: after →
      Proper c.engine.stage.stage call := fun hcalls => h.proper _ (by rw [hcalls]; simp)
  cases hstep with
  | acquire p clock hlock hg =>
    -- a new call
    obtain ⟨hidle, rfl⟩ := Guard.acquire?_eq_some.mp hg
    exact h.acquire p clock hlock hidle
  | ignore p clock hlock hg =>
    -- a call that is ignored leaves the engine as it is and says nothing
    rw [Engine.start_of_held (Guard.acquire?_eq_none.mp hg), tidings_nil, List.append_nil]
    exact h
  -- before its run has begun, the call has no run, and nobody else has one
  | set hcalls hphase =>
    have hactive := congrArg Phase.isOver hphase
    refine h.goOn hcalls hactive rfl (fun r hr => ?_) ((hproper hcalls).set hphase)
    exact absurd (h.phase_of_run? hcalls hactive hr) (by rw [hphase]; simp)
  | tell hcalls hphase =>
    have hactive := congrArg Phase.isOver hphase
    refine h.goOn hcalls hactive rfl (fun r hr => ?_) ((hproper hcalls).tell hphase)
    exact absurd (h.phase_of_run? hcalls hactive hr) (by rw [hphase]; simp)
  -- from then on, the run of the engine is that of the call
  | begin hcalls hphase hr =>
    refine h.goOn hcalls (congrArg Phase.isOver hphase) rfl (fun r' hr' => ?_)
      ((hproper hcalls).begin hphase hr)
    rw [Option.some.inj hr']
  | @chain before call after r e signals r' i hcalls hphase hstep hr' =>
    obtain ⟨off, heq⟩ := c.engineAt_step r i
    obtain ⟨rfl, rfl⟩ := Prod.mk.inj (hstep.symm.trans heq)
    obtain rfl := Option.some.inj hr'
    refine h.goOn hcalls (congrArg Phase.isOver hphase) rfl (fun r' hr' => ?_)
      ((hproper hcalls).chain hphase off _ i)
    rw [Option.some.inj hr']
  -- and then it has none any more
  | finish hcalls hphase hend =>
    obtain ⟨rfl, ⟨off, hresult⟩, hsignals⟩ := engineAt_conclude hend
    exact h.goOn hcalls (congrArg Phase.isOver hphase) rfl
      (fun r hr => absurd hr (by simp [Engine.abandon]))
      ((hproper hcalls).finish hphase hresult hsignals)
  | breakDown hcalls hphase hend =>
    obtain ⟨rfl, -, hsignals⟩ := engineAt_conclude hend
    exact h.goOn hcalls (congrArg Phase.isOver hphase) rfl
      (fun r hr => absurd hr (by simp [Engine.abandon]))
      ((hproper hcalls).breakDown hphase hsignals)
  | leave hcall hover hn => exact h.leave hcall hover hn
  | stop hmove hstep => exact h.stop hmove hstep

end Inv

theorem Steps.inv {e : Engine} (he : e.guard = .fresh) (hrun : e.run? = none) {c : Chronicle}
    (h : Steps (.ofEngine e) c) : Inv c := by
  induction h with
  | refl => exact .ofEngine he hrun
  | step _ hstep ih => exact ih.step hstep

/-! ### The functions of an engine as steps -/

section Functions

variable {c : Chronicle}

theorem engineAt_of_run? {r : Run} (hr : c.engine.run? = some r) : c.engineAt r = c.engine := by
  unfold engineAt
  rw [← hr]

/-- A call that finds the engine idle comes as far as setting the stage, in two steps. -/
theorem steps_set (hlock : c.crowd.stopping = none) (hidle : c.engine.guard.held = false)
    (p : Project) (clock : Nat) :
    ∃ c' call, c.Steps c' ∧ c'.calls = c.calls ++ [call] ∧
      call.phase = .set (c.engine.start p clock) ∧ call.number ∈ c'.crowd.holders ∧
      c'.events = c.events ∧ c'.engine = { c.engine with
        guard := ⟨true, c.engine.guard.number + 1, false⟩
        stage := (c.engine.start p clock).1.stage } := by
  have hacquire := Steps.refl.step (.acquire p clock hlock (Guard.acquire?_of_idle hidle))
  exact ⟨_, _, hacquire.step (.set rfl rfl), rfl, rfl, List.mem_cons_self, List.append_nil _, rfl⟩

/-- **A call for a run is made of steps** with nothing of anyone else in between, up to where its
chains have their turns. -/
theorem steps_start (hlock : c.crowd.stopping = none) (p : Project) (clock : Nat) :
    ∃ c', c.Steps c' ∧ c'.engine = (c.engine.start p clock).1 ∧
      c'.events = c.events ++ tidings (c.engine.start p clock).2.1 := by
  cases hheld : c.engine.guard.held with
  | true =>
    -- the call is ignored, which is one step
    exact ⟨_, Steps.refl.step (.ignore p clock hlock (Guard.acquire?_eq_none.mpr hheld)), rfl, rfl⟩
  | false =>
    obtain ⟨c', call, hsteps, hcalls, hphase, hholds, hevents, hengine⟩ :=
      steps_set hlock hheld p clock
    by_cases hstarts : p.program.starts = []
    · -- nothing to start: the call says so and gives the guard back
      rw [Engine.start_of_idle_of_nothing hheld p clock hstarts] at hphase hengine ⊢
      have htell := hsteps.step (.tell hcalls hphase)
      have hleave := htell.step (.leave (List.mem_append_right _ List.mem_cons_self) rfl hholds)
      refine ⟨_, hleave, ?_, ?_⟩
      · change { c'.engine with guard := c'.engine.guard.release } = _
        rw [hengine]
        rfl
      · exact congrArg (· ++ _) hevents
    -- the run begins, and the call stays with its chains
    · rw [Engine.start_of_idle hheld p clock hstarts] at hphase hengine ⊢
      refine ⟨_, hsteps.step (.begin hcalls hphase rfl), ?_, congrArg (· ++ _) hevents⟩
      change c'.engineAt _ = _
      unfold engineAt
      rw [hengine]

/-- **A turn of an engine is made of steps.** So what holds after any steps holds of every run that
the engine performs by its own functions, one turn after the other. -/
theorem steps_turn (h : Inv c) (hlock : c.crowd.stopping = none) (t : Turn) :
    ∃ c', c.Steps c' ∧ c'.engine = (c.engine.turn t).1 ∧
      c'.events = c.events ++ tidings (c.engine.turn t).2 := by
  cases t with
  | ask p clock => exact steps_start hlock p clock
  | chain i =>
    rw [Engine.turn_chain]
    cases hr : c.engine.run? with
    | none =>
      -- no run goes on, so no chain has a turn
      have hstep : c.engine.step i = (c.engine, []) := by
        unfold Engine.step
        rw [hr]
      rw [hstep]
      exact ⟨c, .refl, rfl, (List.append_nil _).symm⟩
    | some r =>
      -- the chain is one of the run of some call, and that call goes on
      obtain ⟨call, hcall, hphase⟩ := h.run_eq r hr
      obtain ⟨before, after, hcalls⟩ := List.append_of_mem hcall
      obtain ⟨off, hstep⟩ := c.engineAt_step r i
      refine ⟨_, Steps.refl.step (.chain i hcalls hphase hstep rfl), ?_, ?_⟩ <;>
        rw [← engineAt_of_run? hr, hstep] <;> rfl
  | stop =>
    -- a stop looks, and calls off what it saw
    have hlook : c.Steps _ := Steps.refl.step (.stop rfl (.look hlock))
    rw [Engine.turn_stop]
    unfold Engine.stop Guard.stop
    cases hheld : c.engine.guard.held with
    | true =>
      have hsaw : c.crowd.engine.isRunning = true := hheld
      rw [hsaw] at hlook
      exact ⟨_, hlook.step (.stop rfl (.callOff rfl)), rfl, (List.append_nil _).symm⟩
    | false =>
      have hsaw : c.crowd.engine.isRunning = false := hheld
      rw [hsaw] at hlook
      exact ⟨_, hlook.step (.stop rfl (.leave rfl)), rfl, (List.append_nil _).symm⟩

/-- **The end of a run is made of steps** of the call that led it. -/
theorem steps_conclude (h : Inv c) :
    ∃ c', c.Steps c' ∧ c'.engine = c.engine.conclude.1 ∧
      c'.events = c.events ++ tidings c.engine.conclude.2.1 := by
  rcases hend : c.engine.conclude with ⟨e, signals, result?⟩
  cases result? with
  | none =>
    -- the run has not ended
    have hnothing := c.engine.conclude_of_none (by rw [hend])
    obtain ⟨rfl, rfl, -⟩ := Prod.mk.inj (hend.symm.trans hnothing) |>.imp id Prod.mk.inj
    exact ⟨c, .refl, rfl, (List.append_nil _).symm⟩
  | some result =>
    -- the run that has ended is that of a call, which is the one that goes on
    obtain ⟨r, hr, -⟩ := c.engine.conclude_of_some (by rw [hend])
    obtain ⟨call, hcall, hphase⟩ := h.run_eq r hr
    obtain ⟨before, after, hcalls⟩ := List.append_of_mem hcall
    have hholds := h.active call hcall (by rw [hphase]; rfl)
    rw [← engineAt_of_run? hr] at hend
    obtain ⟨rfl, -⟩ := engineAt_conclude hend
    have hmem : ∀ call' : Call, call' ∈ before ++ call' :: after := fun call' => by simp
    cases result with
    | report report =>
      -- the call says how its run has ended, or nothing, and gives the guard back
      have hfinish := Steps.refl.step (.finish hcalls hphase hend)
      exact ⟨_, hfinish.step (.leave (hmem _) rfl hholds), rfl, rfl⟩
    | broken =>
      have hbroken := Steps.refl.step (.breakDown hcalls hphase hend)
      exact ⟨_, hbroken.step (.leave (hmem _) rfl hholds), rfl, rfl⟩

end Functions

/-! ### The protocol -/

/-- **What is told of the runs of an engine**, whoever has called. -/
structure Protocol (c : Chronicle) : Prop where
  /-- All that was said is what the calls have said, one call after the other: a call that was
  ignored has no part in it. -/
  events_eq : c.events = c.calls.flatMap Call.said
  /-- They are in the order in which they acquired the guard, each with a number of its own. -/
  numbers_eq : c.calls.map Call.number = List.range' 1 c.calls.length
  /-- A call whose report is there has said a whole segment, which bears its number and tells of
  that report, -/
  told : ∀ call ∈ c.calls, ∀ report stage, call.phase = .told report stage →
    Segment call.project call.number report stage call.said
  /-- and any other one has said nothing so far, or the beginning of one. -/
  telling : ∀ call ∈ c.calls, (∀ report stage, call.phase ≠ .told report stage) →
    call.said = [] ∨ Opening call.project call.number call.said
  /-- Only the last call can be in the middle of its segment. -/
  past : ∀ before call after, c.calls = before ++ call :: after → after ≠ [] →
    call.phase.isOver = true

/-- **Whoever calls, and in whatever order**, an engine tells of one run after the other, and of
each from its beginning to its end. -/
theorem protocol_of_steps {e : Engine} (he : e.guard = .fresh) (hrun : e.run? = none)
    {c : Chronicle} (h : Steps (.ofEngine e) c) : c.Protocol := by
  have hinv := h.inv he hrun
  refine ⟨hinv.events_eq, ?_, ?_, ?_, ?_⟩
  -- the numbers go up to that of the guard, so there are as many calls
  · have hlength := congrArg List.length hinv.numbers_eq
    rw [List.length_map, List.length_range'] at hlength
    rw [hlength, hinv.numbers_eq]
  · intro call hcall report stage hphase
    have hproper := hinv.proper call hcall
    rwa [Proper, hphase] at hproper
  · intro call hcall hphase
    have hproper := hinv.proper call hcall
    rw [Proper] at hproper
    -- one case for each phase: admitted, set, playing, told and broken
    split at hproper
    · exact Or.inl hproper.1
    · exact Or.inl hproper.1
    · exact Or.inr hproper.2
    · exact absurd ‹_› (hphase _ _)
    · exact Or.inr hproper
  · intro before call after hcalls hafter
    cases hactive : call.phase.isOver with
    | true => rfl
    | false =>
      -- a call that is not over holds the guard, so no other one comes after it
      have hholds := hinv.active call (by rw [hcalls]; simp) hactive
      exact absurd (hinv.last hcalls (hinv.number_of_mem_holders hholds)).1 hafter

/-- A run that is called off in its first turn, by a stop that looked before it had begun and while
another call was ignored, and after it a call with nothing to start. -/
theorem protocol_overlapping :
    ∃ c : Chronicle, c.Protocol ∧
      c.events = [.runStarted 1, .runFinished 1 .stopped, .noStartBlock] ∧
      c.calls.map Call.number = [1, 2] := by
  -- the first call acquires the guard
  have hacquired := (Steps.refl (c := ofEngine (.sample .sequential))).step
    (.acquire .sample 0 (g := ⟨true, 1, false⟩) rfl rfl)
  -- the second one is ignored, and someone who is about to stop has looked
  have hlooked := (hacquired.step (.ignore .sample 0 rfl rfl)).step (.stop rfl (.look rfl))
  -- the first run begins
  have hbegun := (hlooked.step (@Step.set _ [] _ _ _ rfl rfl)).step
    (@Step.begin _ [] _ _ _ _ _ rfl rfl rfl)
  -- the stop calls it off before its first step
  have hchain := (hbegun.step (.stop rfl (.callOff rfl))).step
    (@Step.chain _ [] _ _ _ _ _ _ 0 rfl rfl rfl rfl)
  -- the first call tells the end of its run and leaves
  have hover := (hchain.step (@Step.finish _ [] _ _ _ _ _ _ rfl rfl rfl)).step
    (.leave List.mem_cons_self rfl List.mem_cons_self)
  -- a call with nothing to start
  have hnothing := ((hover.step (.acquire .empty 0 (g := ⟨true, 2, false⟩) rfl rfl)).step
    (@Step.set _ [_] _ _ _ rfl rfl)).step (@Step.tell _ [_] _ _ _ _ _ rfl rfl)
  exact ⟨_, protocol_of_steps rfl rfl hnothing, rfl, rfl⟩

end Chronicle

end StagePlay
