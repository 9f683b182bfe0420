import StagePlay.Proofs.Chain.Alone
import StagePlay.Proofs.Engine.Turns

/-!
# Outlines of a run

A run has a number, and each of its chains has a clock. Neither matters to what the run does, only to
what it is called and to when it does it. The `Run.outline` is the run without them.

* `Chain.step_timeless` — a chain takes the same step whatever its times are;
* `Run.step_outline`, `Run.result?_outline` — what a run does next, and how it ended, can be read off
  its outline;
* `Run.step_withRun` — no step of a run sends a signal that names a run;
* `Run.advance` — the way of a run whose chains have their turns one after the other. Turns that do
  not call it off lead along this way, however many of them there are (`Run.account_underway`), and
  there is one end at most on it (`Run.advance_unique`).

All this holds for any routines, also for those of a host.
-/

namespace StagePlay

/-! ### Signals that name a run -/

/-- A signal with another number wherever it names a run. Frames, notes and words about unknown
blocks name none and stay as they are. -/
def Signal.withRun (number : Nat) : Signal → Signal
  | .event (.runStarted _) => .event (.runStarted number)
  | .event (.runFinished _ outcome) => .event (.runFinished number outcome)
  | .event .noStartBlock => .event .noStartBlock
  | .event (.unknownOperation b kind) => .event (.unknownOperation b kind)
  | .frame s => .frame s
  | .note n => .note n

section Nameless

variable (number : Nat)

theorem Scene.change_withRun (s : Scene) (owner : Option String) (c : Change) :
    (s.change owner c).2.map (.withRun number) = (s.change owner c).2 := by
  unfold Scene.change
  split <;> rfl

theorem Scene.perform_withRun (s : Scene) (owner : Option String) (b : Block) (e : Effect) :
    (s.perform owner b e).2.map (.withRun number) = (s.perform owner b e).2 := by
  cases e with
  | change c => exact s.change_withRun number owner c
  | announce kind => rfl
  | note => rfl

theorem Scene.performAll_withRun (s : Scene) (owner : Option String) (b : Block)
    (es : List Effect) :
    (s.performAll owner b es).2.map (.withRun number) = (s.performAll owner b es).2 := by
  induction es generalizing s with
  | nil => rfl
  | cons e es ih =>
    change ((s.perform owner b e).2 ++ ((s.perform owner b e).1.performAll owner b es).2).map _
      = (s.perform owner b e).2 ++ ((s.perform owner b e).1.performAll owner b es).2
    rw [List.map_append, s.perform_withRun, ih]

/-- **No step of a chain names a run.** What it sends are frames, notes and words about unknown
blocks; runs are named by their beginning and end alone. -/
theorem Chain.step_withRun (c : Chain) (score : Score) (scene : Scene) :
    (c.step score scene).2.2.map (.withRun number) = (c.step score scene).2.2 := by
  cases hcalled : scene.cancelled with
  | true =>
    rw [step_of_cancelled hcalled]
    rfl
  | false => ?_
  refine c.step_cases hcalled (motive := fun r _ => r.2.2.map (.withRun number) = r.2.2)
    ?ended ?pause ?frame ?finish ?enter ?dangling ?found ?spent ?round
  -- a frame, and the effects of a block; in all other cases nothing is sent
  case frame => exact fun start tween k m _ => scene.change_withRun number c.owner _
  case enter => exact fun b ts _ _ => Scene.performAll_withRun number _ c.owner b _
  all_goals intros; rfl

/-- So no step of a run names it, whoever's turn it is. -/
theorem Run.step_withRun (r : Run) (off : Bool) (s : Stage) (i : Nat) :
    (r.step off s i).2.2.map (.withRun number) = (r.step off s i).2.2 :=
  r.step_cases off s i (motive := fun after _ => after.2.2.map (.withRun number) = after.2.2)
    (fun _ => rfl) fun _ c _ _ _ _ _ _ => c.step_withRun number r.score _

end Nameless

/-! ### Outlines -/

namespace Chain

theorem enter_snd (c : Chain) (score : Score) (scene : Scene) (b : Block) (ts : List Task) :
    (c.enter score scene b ts).2 = { scene with operations := scene.operations + 1 }.performAll
      c.owner b (c.actOf score scene b).effects := rfl

theorem resume_frame_snd (c : Chain) (scene : Scene) (start : Nat) (tween : Tween) (k : Nat)
    (m : Motion) : (c.resume scene (.frame start tween k m)).2 =
      scene.change c.owner (m.change (tween.progress k)) := rfl

theorem enter_timeless (c : Chain) (score : Score) (scene : Scene) (b : Block) (ts : List Task) :
    (c.timeless.enter score scene b ts).1.timeless = (c.enter score scene b ts).1.timeless ∧
      (c.timeless.enter score scene b ts).2 = (c.enter score scene b ts).2 := by
  constructor
  · rw [enter_chain, enter_chain]
    refine timeless_lapse ?_ _ _ _
    obtain ⟨owner, clock, script, state⟩ := c
    cases state with
    | walking | ended => rfl
    | resting rest => cases rest <;> rfl
  · rw [enter_snd, enter_snd]
    rfl

/-- A chain that has shown a frame, whatever its times are: it goes on with the next frame, or walks
on after the last one. -/
theorem timeless_frame (c : Chain) (start clock clock' : Nat) (tween : Tween) (k : Nat)
    (m : Motion) (last : Bool) :
    ({ c.timeless with
        clock
        state := if last then .walking else .resting (.frame 0 tween k m) } : Chain).timeless =
      { c with
        clock := clock'
        state := if last then .walking else .resting (.frame start tween k m) }.timeless := by
  cases last <;> rfl

theorem resume_timeless (c : Chain) (scene : Scene) (rest : Rest) :
    (c.timeless.resume scene rest.timeless).1.timeless = (c.resume scene rest).1.timeless ∧
      (c.timeless.resume scene rest.timeless).2 = (c.resume scene rest).2 := by
  cases rest with
  | pause wake => exact ⟨rfl, rfl⟩
  | frame start tween k m =>
    constructor
    · rw [Rest.timeless, resume_frame_chain, resume_frame_chain]
      exact c.timeless_frame start _ _ tween (k + 1) m (tween.isLast k)
    · simp only [Rest.timeless, resume_frame_snd]
      rfl

/-- **Times do not matter to what a chain does**, whatever its routines are. A rest is over when its
chain has its next turn, and the time for which it was set is only remembered. -/
theorem step_timeless (c : Chain) (score : Score) (scene : Scene) :
    (c.timeless.step score scene).1.timeless = (c.step score scene).1.timeless ∧
      (c.timeless.step score scene).2 = (c.step score scene).2 := by
  obtain ⟨owner, clock, script, state⟩ := c
  cases state with
  | ended how => exact ⟨rfl, rfl⟩
  | resting rest =>
    -- the rest goes on as it would, with its times left out
    have hrest := resume_timeless ⟨owner, clock, script, .resting rest⟩ scene rest
    unfold step
    cases scene.cancelled with
    | true => exact ⟨rfl, rfl⟩
    | false => exact hrest
  | walking =>
    cases script with
    | nil => exact ⟨rfl, rfl⟩
    | cons t ts =>
      cases t with
      | enter b =>
        have henter := enter_timeless ⟨owner, clock, .enter b :: ts, .walking⟩ score scene b ts
        unfold step
        cases scene.cancelled with
        | true => exact ⟨rfl, rfl⟩
        | false => exact henter
      | visit id =>
        -- looking up a block and beginning a round do not touch the times
        simp only [step, timeless, State.timeless]
        cases score.program.find? id <;> exact ⟨rfl, rfl⟩
      | rounds b left =>
        cases left with
        | zero => exact ⟨rfl, rfl⟩
        | succ left =>
          simp only [step, timeless, State.timeless]
          cases scene.cancelled <;> exact ⟨rfl, rfl⟩

end Chain

/-- Leaving out the times twice is leaving them out once. -/
theorem Chain.timeless_timeless (c : Chain) : c.timeless.timeless = c.timeless := by
  obtain ⟨owner, clock, script, state⟩ := c
  cases state with
  | walking | ended => rfl
  | resting rest => cases rest <;> rfl

namespace Run

/-- **A run whatever its number and its times are.** Two runs with the same outline do the same, and
may have been asked for at any time and as the first or the tenth one. -/
def outline (r : Run) : Run := { r with number := 0, chains := r.chains.map Chain.timeless }

/-- Two runs have the same outline if they agree on everything but number and times. -/
theorem outline_eq_iff {r r' : Run} : r.outline = r'.outline ↔
    r.score = r'.score ∧ r.scheduling = r'.scheduling ∧ r.operations = r'.operations ∧
      r.chains.map Chain.timeless = r'.chains.map Chain.timeless := by
  unfold outline
  rw [Run.mk.injEq]
  exact ⟨fun h => h.2, fun h => ⟨rfl, h⟩⟩

/-- Whose turn it is can be read off the outline, as it depends on how the chains before have ended.
-/
theorem mayAct_outline (r : Run) (i : Nat) : r.outline.mayAct i = r.mayAct i := by
  cases hscheduling : r.scheduling with
  | concurrent =>
    have hscheduling' : r.outline.scheduling = .concurrent := hscheduling
    rw [mayAct_of_concurrent hscheduling, mayAct_of_concurrent hscheduling']
  | sequential =>
    have hscheduling' : r.outline.scheduling = .sequential := hscheduling
    have hbefore : r.outline.chains.take i = (r.chains.take i).map Chain.timeless :=
      List.map_take.symm
    unfold mayAct
    rw [hscheduling, hscheduling', hbefore]
    dsimp only
    rw [List.all_map]
    simp only [Function.comp_def, Chain.ending?_timeless]

/-- How a run ended can be read off its outline, in both schedules. -/
theorem result?_outline (r : Run) (off : Bool) : r.outline.result? off = r.result? off := by
  have hchains : r.outline.chains = r.chains.map Chain.timeless := rfl
  have hreport : ∀ whole, r.outline.report whole = r.report whole := fun _ => rfl
  cases hscheduling : r.scheduling with
  | concurrent =>
    have hscheduling' : r.outline.scheduling = .concurrent := hscheduling
    unfold result?
    rw [hscheduling, hscheduling', hchains]
    dsimp only
    rw [List.all_map, List.all_map]
    simp only [Function.comp_def, Chain.ending?_timeless, hreport]
  | sequential =>
    have hscheduling' : r.outline.scheduling = .sequential := hscheduling
    unfold result?
    rw [hscheduling, hscheduling', hchains]
    dsimp only
    rw [List.find?_map]
    simp only [Function.comp_def, Chain.ending?_timeless]
    cases r.chains.find? fun c => c.ending? ≠ some .completed with
    | none => exact congrArg some (hreport _)
    | some c =>
      simp only [Option.map_some, Chain.ending?_timeless, hreport]

/-- What a chain carries out next can be read off the outline. -/
theorem deed?_outline (r : Run) (off : Bool) (i : Nat) : r.outline.deed? off i = r.deed? off i := by
  have hchains : r.outline.chains[i]? = r.chains[i]?.map Chain.timeless := List.getElem?_map
  unfold deed?
  rw [hchains, mayAct_outline]
  cases r.chains[i]? with
  | none => rfl
  | some c =>
    dsimp only [Option.map_some]
    rw [Chain.entering?_timeless]
    rfl

/-- A chain after a step of its run, whatever its times are: it has taken its own step, or is as it
was. -/
theorem getElem?_step_timeless (r : Run) (off : Bool) (s : Stage) (i j : Nat) :
    ((r.step off s i).1.chains[j]?).map Chain.timeless =
      r.chains[j]?.map fun c => if i = j ∧ r.mayAct i = true then
        (c.step r.score ⟨s, r.operations, off⟩).1.timeless else c.timeless := by
  have hstep := congrArg (Option.map Chain.timeless) (r.getElem?_step off s i j)
  rw [Option.map_map, Option.map_map] at hstep
  refine hstep.trans ?_
  congr 1
  funext c
  dsimp only [Function.comp_apply]
  split <;> rfl

/-- **What a run does can be read off its outline**: the outline after the step, the stage and what
is sent. -/
theorem step_outline (r : Run) (off : Bool) (s : Stage) (i : Nat) :
    (r.outline.step off s i).1.outline = (r.step off s i).1.outline ∧
      (r.outline.step off s i).2 = (r.step off s i).2 := by
  have hchain : ∀ c : Chain, _ := fun c => c.step_timeless r.score ⟨s, r.operations, off⟩
  -- the step itself is that of one chain, and the chains are compared place by place
  have hoperations : (r.outline.step off s i).1.operations = (r.step off s i).1.operations ∧
      (r.outline.step off s i).2 = (r.step off s i).2 := by
    unfold step
    rw [mayAct_outline, show r.outline.chains[i]? = r.chains[i]?.map Chain.timeless from
      List.getElem?_map]
    cases r.chains[i]? with
    | none => exact ⟨rfl, rfl⟩
    | some c =>
      cases r.mayAct i with
      | false => exact ⟨rfl, rfl⟩
      | true =>
        have hdone := (hchain c).2
        simp only [Option.map_some, if_true]
        exact ⟨congrArg (·.1.operations) hdone, by simp only [outline, hdone]⟩
  -- score and scheduling do not change, and the chains agree place by place
  refine ⟨outline_eq_iff.mpr ⟨?_, ?_, hoperations.1, ?_⟩, hoperations.2⟩
  · rw [score_step, score_step]
    rfl
  · rw [scheduling_step, scheduling_step]
    rfl
  · refine List.ext_getElem? fun j => ?_
    rw [List.getElem?_map, List.getElem?_map, getElem?_step_timeless, getElem?_step_timeless,
      mayAct_outline, show r.outline.chains[j]? = r.chains[j]?.map Chain.timeless from
        List.getElem?_map, Option.map_map]
    congr 1
    funext c
    dsimp only [Function.comp_apply, outline]
    rw [(hchain c).1, Chain.timeless_timeless]

section Congr

variable {r r' : Run}

/-- So runs with the same outline take the same steps. -/
theorem step_congr (h : r.outline = r'.outline) (off : Bool) (s : Stage) (i : Nat) :
    (r.step off s i).1.outline = (r'.step off s i).1.outline ∧
      (r.step off s i).2 = (r'.step off s i).2 := by
  obtain ⟨hrun, hdone⟩ := r.step_outline off s i
  obtain ⟨hrun', hdone'⟩ := r'.step_outline off s i
  rw [h] at hrun hdone
  exact ⟨hrun.symm.trans hrun', hdone.symm.trans hdone'⟩

theorem deed?_congr (h : r.outline = r'.outline) (off : Bool) (i : Nat) :
    r.deed? off i = r'.deed? off i := by
  rw [← r.deed?_outline, h, r'.deed?_outline]

theorem result?_congr (h : r.outline = r'.outline) (off : Bool) : r.result? off = r'.result? off := by
  rw [← r.result?_outline, h, r'.result?_outline]

end Congr

/-- Two runs at their beginning, asked for at any times and under any number, have the same outline.
-/
theorem outline_ofScore (number number' : Nat) (score : Score) (scheduling : Scheduling) (s : Stage)
    (clock clock' : Nat) :
    (ofScore number score scheduling s clock).outline =
      (ofScore number' score scheduling s clock').outline := by
  refine outline_eq_iff.mpr ⟨rfl, rfl, rfl, ?_⟩
  unfold ofScore
  rw [List.map_map, List.map_map]
  rfl

end Run

/-! ### One way -/

namespace Run

/-- The first chain that is not completed, whose turn it is, or one past the last if all of them
are. -/
def lead (r : Run) : Nat := r.chains.findIdx fun c => c.ending? ≠ some .completed

/-- **The way of a run** whose chains have their turns one after the other: its first steps, each by
the chain whose turn it is. Turns of other chains do nothing, so any turns lead along this way. -/
def advance (r : Run) (s : Stage) : Nat → Run × Stage × List Signal
  | 0 => (r, s, [])
  | n + 1 =>
    let before := r.advance s n
    let after := before.1.step false before.2.1 before.1.lead
    (after.1, after.2.1, before.2.2 ++ after.2.2)

theorem advance_succ (r : Run) (s : Stage) (n : Nat) :
    r.advance s (n + 1) =
      (((r.advance s n).1.step false (r.advance s n).2.1 (r.advance s n).1.lead).1,
        ((r.advance s n).1.step false (r.advance s n).2.1 (r.advance s n).1.lead).2.1,
        (r.advance s n).2.2 ++
          ((r.advance s n).1.step false (r.advance s n).2.1 (r.advance s n).1.lead).2.2) := rfl

theorem lead_congr {r r' : Run} (h : r.outline = r'.outline) : r.lead = r'.lead := by
  have hlead : ∀ r : Run, r.outline.lead = r.lead := by
    intro r
    unfold lead
    change (r.chains.map Chain.timeless).findIdx _ = _
    rw [List.findIdx_map]
    simp only [Function.comp_def, Chain.ending?_timeless]
  rw [← hlead r, h, hlead r']

section Sequential

variable {r : Run} {s : Stage}

/-- A step that finds no chain on its way leads nowhere: there is no such chain, it has to wait, or
it has ended. At most a clock is handed over, which the outline does not see. -/
theorem step_of_ended (off : Bool) (s : Stage) {i : Nat}
    (h : ∀ c, r.chains[i]? = some c → r.mayAct i = true → c.ending?.isSome) :
    (r.step off s i).1.outline = r.outline ∧ (r.step off s i).2 = (s, []) := by
  refine r.step_cases off s i
    (motive := fun after _ => after.1.outline = r.outline ∧ after.2 = (s, [])) ?idle ?acting
  case idle => exact fun _ => ⟨rfl, rfl⟩
  case acting =>
    rintro cs c cs' cs'' hchains rfl hmay hclocks
    have hc : r.chains[cs.length]? = some c := by
      rw [hchains, List.getElem?_append_right (Nat.le_refl _), Nat.sub_self]
      rfl
    obtain ⟨how, hending⟩ := Option.isSome_iff_exists.mp (h c hc hmay)
    rw [Chain.step_of_ending hending]
    refine ⟨outline_eq_iff.mpr ⟨rfl, rfl, rfl, ?_⟩, rfl⟩
    -- the chain that follows may have another clock
    have hsame : cs''.map Chain.timeless = cs'.map Chain.timeless := by
      have htimes := congrArg (List.map Chain.timeless) hclocks
      rw [List.map_map, List.map_map] at htimes
      exact htimes
    dsimp only
    rw [hchains, List.map_append, List.map_append, List.map_cons, List.map_cons, hsame]

variable (hscheduling : r.scheduling = .sequential)
include hscheduling

/-- A chain before the first one that is not completed is, and one behind it has to wait. So only
the one that leads can do anything. -/
theorem step_of_ne_lead (off : Bool) (s : Stage) {i : Nat} (hi : i ≠ r.lead) :
    (r.step off s i).1.outline = r.outline ∧ (r.step off s i).2 = (s, []) := by
  refine step_of_ended off s fun c hc hmay => ?_
  cases hending : c.ending? with
  | some how => rfl
  | none =>
    obtain ⟨hlt, rfl⟩ := List.getElem?_eq_some_iff.mp hc
    refine absurd ((List.findIdx_eq hlt).mpr ⟨by simp [hending], fun j hj => ?_⟩).symm hi
    have hbefore := (mayAct_of_sequential hscheduling).mp hmay j _ hj
      (List.getElem?_eq_getElem (Nat.lt_trans hj hlt))
    simp [hbefore]

/-- Nothing leads beyond the end of a run: the chain that leads has ended or there is none. -/
theorem step_of_over {off : Bool} (hover : (r.result? off).isSome) (s : Stage) (i : Nat) :
    (r.step off s i).1.outline = r.outline ∧ (r.step off s i).2 = (s, []) := by
  refine step_of_ended off s fun c hc hmay => ?_
  cases hending : c.ending? with
  | some how => rfl
  | none =>
    obtain ⟨hlt, rfl⟩ := List.getElem?_eq_some_iff.mp hc
    have hfind : r.chains.find? (fun c => c.ending? ≠ some .completed) = some r.chains[i] := by
      refine List.find?_eq_some_iff_getElem.mpr ⟨by simp [hending], i, hlt, rfl, fun j hj => ?_⟩
      have hbefore := (mayAct_of_sequential hscheduling).mp hmay j _ hj
        (List.getElem?_eq_getElem (Nat.lt_trans hj hlt))
      simp [hbefore]
    unfold result? at hover
    rw [hscheduling] at hover
    dsimp only at hover
    rw [hfind] at hover
    dsimp only at hover
    rw [hending] at hover
    exact absurd hover Bool.false_ne_true

theorem scheduling_advance (n : Nat) : (r.advance s n).1.scheduling = .sequential := by
  induction n with
  | zero => exact hscheduling
  | succ n ih => exact (scheduling_step _ _ _ _).trans ih

/-- Beyond its end, the way of a run stays where it is, however many steps are taken. -/
theorem advance_of_over {n : Nat} (hover : ((r.advance s n).1.result? false).isSome) (k : Nat) :
    (r.advance s (n + k)).1.outline = (r.advance s n).1.outline ∧
      (r.advance s (n + k)).2 = (r.advance s n).2 := by
  induction k with
  | zero => exact ⟨rfl, rfl⟩
  | succ k ih =>
    obtain ⟨houtline, hsame⟩ := ih
    have hover' : ((r.advance s (n + k)).1.result? false).isSome := by
      rwa [result?_congr houtline]
    obtain ⟨hstay, hnothing⟩ := step_of_over (scheduling_advance hscheduling (n + k)) hover'
      (r.advance s (n + k)).2.1 (r.advance s (n + k)).1.lead
    rw [← Nat.add_assoc, advance_succ]
    dsimp only
    rw [hstay, hnothing, List.append_nil]
    exact ⟨houtline, hsame⟩

/-- **There is one end at most on the way of a run.** Of two ends, the later one is beyond the
earlier one, and so the same. -/
theorem advance_unique {n n' : Nat} (hover : ((r.advance s n).1.result? false).isSome)
    (hover' : ((r.advance s n').1.result? false).isSome) :
    (r.advance s n).1.outline = (r.advance s n').1.outline ∧
      (r.advance s n).2 = (r.advance s n').2 := by
  rcases Nat.le_total n n' with hle | hle
  · obtain ⟨k, rfl⟩ := Nat.exists_eq_add_of_le hle
    obtain ⟨houtline, hsame⟩ := advance_of_over hscheduling hover k
    exact ⟨houtline.symm, hsame.symm⟩
  · obtain ⟨k, rfl⟩ := Nat.exists_eq_add_of_le hle
    exact advance_of_over hscheduling hover' k

omit hscheduling

/-- **Turns that do not call a run off lead along its way.** The account says how many steps of the
way have been taken; a turn takes the next one, or none. -/
theorem account_underway (r₀ : Run) (s₀ : Stage) (hscheduling : r₀.scheduling = .sequential) :
    Run.Account fun r s off signals _ => off = false → ∃ n,
      r.outline = (r₀.advance s₀ n).1.outline ∧ (s, signals) = (r₀.advance s₀ n).2 where
  stop _ hoff := nomatch hoff
  chain := by
    rintro r s off signals deeds i hway rfl
    obtain ⟨n, houtline, hsame⟩ := hway rfl
    have hr : r.scheduling = .sequential :=
      (outline_eq_iff.mp houtline).2.1.trans (scheduling_advance hscheduling n)
    by_cases hi : i = r.lead
    · -- a step of the way
      obtain ⟨hstage, hsignals⟩ := Prod.mk.inj hsame
      obtain ⟨hafter, hdone⟩ := step_congr houtline false s i
      refine ⟨n + 1, ?_⟩
      rw [advance_succ, ← lead_congr houtline, ← hi, ← hstage, ← hsignals, ← hdone]
      exact ⟨hafter, rfl⟩
    -- a turn of another chain, which does nothing
    · obtain ⟨hstay, hnothing⟩ := step_of_ne_lead hr false s hi
      refine ⟨n, ?_⟩
      rw [hstay, hnothing, List.append_nil]
      exact ⟨houtline, hsame⟩

end Sequential

end Run

end StagePlay
