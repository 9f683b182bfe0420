import StagePlay.Proofs.Engine.Frames
import StagePlay.Proofs.Routine.Bounds
import StagePlay.Proofs.Stage.Saving

/-!
# The frames of a run in bounds

Every frame of a run shows every figure at a place in bounds, whatever is carried out and for however
long. Its headings are in bounds as well if all the blocks that were carried out are calm, and then the
frame can be saved and read again (`Engine.frames_finite`). Without that condition headings may leave
the floats (`Engine.sampleSpinning_overflows`).

What a chain keeps for this is `Chain.InBounds`: the motion that it is in is in bounds, and its next
frame is not due long after the motion is over, so that its progress is a number from 0 to 1.
-/

namespace StagePlay

open Json Number Routine

/-! ### What is shown at once -/

/-- **Something done in bounds**: the stage that it leads to, and all that it shows. The frames are
mentioned apart, since what is done may show several stages before the one that it leads to. -/
structure Shown (calm : Prop) (done : Scene × List Signal) : Prop where
  stage : done.1.stage.InBounds calm
  frames : ∀ s ∈ frames done.2, s.InBounds calm

namespace Scene

variable {calm : Prop} {s : Scene} {owner : Option String}

theorem shown_nothing (hs : s.stage.InBounds calm) : Shown calm (s, []) :=
  ⟨hs, fun _ hmem => absurd hmem List.not_mem_nil⟩

theorem shown_change (hs : s.stage.InBounds calm) {c : Change} (hc : c.InBounds calm) :
    Shown calm (s.change owner c) := by
  unfold change
  -- a change that meets a figure shows the stage with it, and one that meets none shows nothing
  split
  · next stage hstage =>
    obtain ⟨id, -, hchange⟩ := Option.bind_eq_some_iff.mp hstage
    have hstage := hs.change? hc hchange
    exact ⟨hstage, List.forall_mem_singleton.mpr hstage⟩
  · exact shown_nothing hs

theorem shown_performAll (b : Block) {es : List Effect}
    (hes : ∀ c, .change c ∈ es → c.InBounds calm) (hs : s.stage.InBounds calm) :
    Shown calm (s.performAll owner b es) := by
  induction es generalizing s with
  | nil => exact shown_nothing hs
  | cons e es ih =>
    -- of the effects only a change shows anything
    have hfirst : Shown calm (s.perform owner b e) := by
      cases e with
      | change c => exact shown_change hs (hes c List.mem_cons_self)
      | announce kind => exact ⟨hs, fun _ hmem => absurd hmem List.not_mem_nil⟩
      | note => exact ⟨hs, fun _ hmem => absurd hmem List.not_mem_nil⟩
    have hrest := ih (fun c hc => hes c (List.mem_cons_of_mem e hc)) hfirst.stage
    refine ⟨hrest.stage, ?_⟩
    show ∀ s ∈ StagePlay.frames (_ ++ _), s.InBounds calm
    rw [frames_append]
    exact List.forall_mem_append.mpr ⟨hfirst.frames, hrest.frames⟩

end Scene

/-! ### Chains -/

namespace Chain

/-- **A chain in bounds**: if it is in a motion, then this is a short one and in bounds, and the
next frame is due soon after its end at the latest. The last clause bounds the offset of the frame,
and through it the progress that is computed from the offset. -/
def InBounds (calm : Prop) (interval : Duration) (c : Chain) : Prop :=
  ∀ start tween k m, c.state = .resting (.frame start tween k m) →
    m.InBounds calm ∧ ∃ d, 0 < d ∧ d ≤ moveTime ∧ tween = .ofDurations (.ofMillis d) interval ∧
      tween.offset k ≤ d + longestWait

variable {calm calm' : Prop} {interval : Duration} {c : Chain}

theorem InBounds.mono (h : c.InBounds calm interval) (hcalm : calm' → calm) :
    c.InBounds calm' interval := fun start tween k m hstate =>
  (h start tween k m hstate).imp (·.mono hcalm) id

theorem inBounds_of_not_resting (h : ∀ rest, c.state ≠ .resting rest) : c.InBounds calm interval :=
  fun _ _ _ _ hstate => absurd hstate (h _)

theorem inBounds_of_walking (h : c.state = .walking) : c.InBounds calm interval :=
  inBounds_of_not_resting fun _ hrest => nomatch h.symm.trans hrest

theorem inBounds_of_unclocked_eq {c' : Chain} (h : c'.unclocked = c.unclocked)
    (hc : c.InBounds calm interval) : c'.InBounds calm interval := by
  change c'.unclocked.InBounds calm interval
  rw [h]
  exact hc

/-- The longest of the short motions and a longest wait are no long time: the offset of a frame
stays where milliseconds and their quotients are far from the border of the floats. -/
theorem due_le {d offset : Nat} (hd : d ≤ moveTime) (h : offset ≤ d + longestWait) :
    offset ≤ 2 ^ 42 := by
  unfold moveTime at hd
  unfold longestWait at h
  omega

variable {score : Score} {scene : Scene}

/-- **A frame of a motion in bounds.** The progress of the frame is a number from 0 to 1, so what it
shows lies between the two ends of the motion; and as the end is not passed yet, the next frame is
due soon. -/
theorem InBounds.resume (hc : c.InBounds calm interval) (hs : scene.stage.InBounds calm) {start k : Nat}
    {tween : Tween} {m : Motion} (hstate : c.state = .resting (.frame start tween k m)) :
    (c.resume scene (.frame start tween k m)).1.InBounds calm interval ∧
      Shown calm (c.resume scene (.frame start tween k m)).2 := by
  obtain ⟨hm, d, hpos, hshort, rfl, hdue⟩ := hc start tween k m hstate
  have hshort' : d ≤ 2 ^ 42 := hshort.trans (by decide)
  have hdue' := due_le hshort hdue
  constructor
  · rw [resume_frame_chain]
    intro start' tween' k' m' hstate'
    dsimp only at hstate'
    split at hstate'
    · exact nomatch hstate'
    · next hlast =>
      obtain ⟨-, rfl, rfl, rfl⟩ := Rest.frame.inj (State.resting.inj hstate')
      -- this frame came before the end, so the next one is due a wait later at most
      rw [Tween.isLast_iff hpos hshort' hdue', not_le] at hlast
      have hnext := Tween.offset_succ_le (.ofMillis d) interval k
      exact ⟨hm, d, hpos, hshort, rfl, by omega⟩
  · obtain ⟨hfinite, hnonneg, -⟩ := progress_bounds hpos hshort' hdue'
    exact Scene.shown_change hs (hm.change hfinite hnonneg)

/-- A block that is carried out. -/
theorem inBounds_enter (hpart : score.repertoire.IsPartOf .builtin) (hs : scene.stage.InBounds calm)
    {b : Block} (hb : calm → b.Calm) (ts : List Task) :
    (c.enter score scene b ts).1.InBounds calm score.interval ∧
      Shown calm (c.enter score scene b ts).2 := by
  -- the figure that the routine sees is one of the stage
  have hcue : ∀ f, ({ scene with operations := scene.operations + 1 }.cue c.owner).figure? = some f →
      f.InBounds calm := by
    intro f hf
    obtain ⟨id, -, hfind⟩ := Option.bind_eq_some_iff.mp hf
    exact hs f (List.mem_of_find?_eq_some hfind)
  have hact : (c.actOf score scene b).InBounds calm := hpart.inBounds hcue hb
  constructor
  · rw [enter_chain]
    intro start tween k m hstate
    cases hlapse : (c.actOf score scene b).lapse with
    | goOn | giveUp | breakDown | pause =>
      -- no motion begins
      rw [hlapse] at hstate
      exact absurd hstate (by simp [lapse, finish])
    | animate duration motion =>
      rw [hlapse] at hstate
      obtain ⟨-, rfl, rfl, rfl⟩ := Rest.frame.inj (State.resting.inj hstate)
      obtain ⟨hm, d, hpos, hshort, rfl⟩ := hact.motion _ _ hlapse
      -- the first frame is due at once
      have hfirst : (Tween.ofDurations (.ofMillis d) score.interval).offset 0 = 0 := by
        simp [Tween.offset, Duration.ticks, Duration.nanosPerMilli]
      exact ⟨hm, d, hpos, hshort, rfl, by omega⟩
  · exact Scene.shown_performAll b hact.effects hs

/-- **A step of a chain** keeps in bounds. Whether the headings stay in bounds depends on the block
that it carries out, so that is the only thing asked of the step (`hb`). -/
theorem InBounds.step (hpart : score.repertoire.IsPartOf .builtin)
    (hc : c.InBounds calm score.interval) (hs : scene.stage.InBounds calm)
    (hb : ∀ b ∈ c.entering? scene.cancelled, calm → b.Calm) :
    (c.step score scene).1.InBounds calm score.interval ∧ Shown calm (c.step score scene).2 := by
  cases hcalled : scene.cancelled with
  | true =>
    rw [step_of_cancelled hcalled]
    exact ⟨inBounds_of_not_resting (c.chain_step_of_cancelled hcalled).2, Scene.shown_nothing hs⟩
  | false => ?_
  rw [hcalled] at hb
  revert hb
  have hstill := Scene.shown_nothing hs
  refine c.step_cases hcalled (motive := fun done b? => (∀ b ∈ b?, calm → b.Calm) →
      done.1.InBounds calm score.interval ∧ Shown calm done.2)
    ?ended ?pause ?frame ?finish ?enter ?dangling ?found ?spent ?round
  -- in all cases but a frame and a block, no motion is left and nothing is shown
  case ended => exact fun _ _ _ => ⟨hc, hstill⟩
  case pause => exact fun _ _ _ => ⟨inBounds_of_not_resting nofun, hstill⟩
  case frame => exact fun _ _ _ _ hstate _ => hc.resume hs hstate
  case finish => exact fun _ _ _ => ⟨inBounds_of_not_resting nofun, hstill⟩
  case enter => exact fun b ts _ _ hb => inBounds_enter hpart hs (hb b rfl) ts
  -- finding its way in its script, the chain goes on walking
  case dangling => exact fun _ _ hstate _ _ _ => ⟨inBounds_of_walking hstate, hstill⟩
  case found => exact fun _ _ _ hstate _ _ _ => ⟨inBounds_of_walking hstate, hstill⟩
  case spent => exact fun _ _ hstate _ _ => ⟨inBounds_of_walking hstate, hstill⟩
  case round => exact fun _ _ _ hstate _ _ => ⟨inBounds_of_walking hstate, hstill⟩

end Chain

/-! ### Runs -/

namespace Run

/-- All the blocks that were carried out are calm, that is, no turn among them is so wide that
headings could add up to what is no float. -/
def Calm (deeds : List Deed) : Prop := ∀ d ∈ deeds, d.block.Calm

/-- **A run in bounds** so far: its chains, the stage, and all that was shown. The headings are in
bounds if all was calm, and the condition speaks of all the deeds so far, so it gets stronger as the
run goes on (`mono`). -/
structure InBounds (score : Score) (r : Run) (s : Stage) (signals : List Signal)
    (deeds : List Deed) : Prop where
  score_eq : r.score = score
  chains : ∀ c ∈ r.chains, c.InBounds (Calm deeds) score.interval
  stage : s.InBounds (Calm deeds)
  frames : ∀ s ∈ frames signals, s.InBounds (Calm deeds)

/-- **Every step of a run keeps it in bounds.** The chain whose turn it is takes a step in bounds,
and the stage that the others find is the one that it leaves. -/
theorem account_inBounds (score : Score) (hpart : score.repertoire.IsPartOf .builtin) :
    Run.Account fun r s _ signals deeds => InBounds score r s signals deeds where
  stop h := h
  chain := by
    intro r s off signals deeds i h
    -- if all is calm after the step, then all was calm before it
    have hearlier : Calm (deeds ++ (r.deed? off i).toList) → Calm deeds :=
      fun hcalm => (List.forall_mem_append.mp hcalm).1
    have hnew : Calm (deeds ++ (r.deed? off i).toList) → ∀ d ∈ r.deed? off i, d.block.Calm :=
      fun hcalm d hd => (List.forall_mem_append.mp hcalm).2 d (Option.mem_toList.mpr hd)
    have hstage := h.stage.mono hearlier
    have hframes : ∀ s ∈ StagePlay.frames signals, s.InBounds (Calm (deeds ++ _)) :=
      fun s hs => (h.frames s hs).mono hearlier
    have hchains : ∀ c ∈ r.chains, c.InBounds (Calm (deeds ++ _)) score.interval :=
      fun c hc => (h.chains c hc).mono hearlier
    generalize hdeed : deeds ++ (r.deed? off i).toList = deeds' at hnew hstage hframes hchains ⊢
    clear hdeed hearlier
    revert hnew
    refine r.step_cases off s i
      (motive := fun after d? => (Calm deeds' → ∀ d ∈ d?, d.block.Calm) →
        InBounds score after.1 after.2.1 (signals ++ after.2.2) deeds') ?idle ?acting
    case idle =>
      -- the chain may not act: nothing happens
      intro _ _
      rw [List.append_nil]
      exact ⟨h.score_eq, hchains, hstage, hframes⟩
    case acting =>
      -- the acting chain with those before and behind it
      intro cs c cs' cs'' heq _ _ hclocks hnew
      rw [heq] at hchains
      obtain ⟨hbefore, hc, hafter⟩ :=
        List.forall_mem_append.mp hchains |>.imp_right List.forall_mem_cons.mp
      have hcalm : ∀ b ∈ c.entering? off, Calm deeds' → b.Calm := fun b hb hcalm =>
        hnew hcalm ⟨cs.length, c.owner, b⟩ (by rw [hb]; rfl)
      rw [← h.score_eq] at hc hpart
      obtain ⟨hstep, hshown⟩ : _ ∧ Shown _ (c.step r.score ⟨s, r.operations, off⟩).2 :=
        hc.step hpart hstage hcalm
      refine ⟨h.score_eq, ?_, hshown.stage, ?_⟩
      · rw [← h.score_eq]
        refine List.forall_mem_append.mpr ⟨?_, List.forall_mem_cons.mpr ⟨hstep, ?_⟩⟩
        · rwa [h.score_eq]
        · -- the chains behind it are as before, whatever their clocks say
          rw [h.score_eq]
          exact forall_of_unclocked_eq Chain.inBounds_of_unclocked_eq hclocks hafter
      · rw [frames_append]
        exact List.forall_mem_append.mpr ⟨hframes, hshown.frames⟩

end Run

/-! ### Whole runs -/

namespace Engine

/-- A run begins in bounds: the actors stand where they are declared, and no chain moves yet. -/
theorem inBounds_firstRun (e : Engine) (p : Project) (clock : Nat) :
    (e.firstRun p clock).InBounds ⟨p.program, e.repertoire, e.interval⟩ (.set p.actors p.backdrop)
      [.frame (.set p.actors p.backdrop), .event (.runStarted (e.guard.number + 1))] [] := by
  have hset : (Stage.set p.actors p.backdrop).InBounds (Run.Calm []) := Stage.inBounds_set _ _
  refine ⟨rfl, fun c hc => ?_, hset, List.forall_mem_singleton.mpr hset⟩
  obtain ⟨b, -, rfl⟩ := List.mem_map.mp hc
  exact Chain.inBounds_of_walking rfl

/-- **The frames of a run are in bounds**, and the headings too if all was calm. A run without start
blocks shows the stage as it is set and nothing else; any other one is followed by the account of
its turns. -/
theorem frames_inBounds {e : Engine} (hidle : e.guard.held = false)
    (hpart : e.repertoire.IsPartOf .builtin) (p : Project) (clock : Nat) (turns : List Turn) :
    ∀ s ∈ frames (e.perform p clock turns).signals,
      s.InBounds (Run.Calm (e.perform p clock turns).deeds) := by
  have hset : ∀ calm, (Stage.set p.actors p.backdrop).InBounds calm := fun _ =>
    Stage.inBounds_set _ _
  by_cases hstarts : p.program.starts = []
  · unfold perform
    rw [start_of_idle_of_nothing hidle p clock hstarts]
    exact List.forall_mem_singleton.mpr (hset _)
  have hstart := start_of_idle hidle p clock hstarts
  have hbegin : (e.firstRun p clock).InBounds ⟨p.program, e.repertoire, e.interval⟩
      (e.start p clock).1.stage.stage (e.start p clock).2.1 [] := by
    rw [hstart]
    exact e.inBounds_firstRun p clock
  obtain ⟨r, -, hr⟩ := (performing_start hidle p clock hstarts).account
    (Run.account_inBounds ⟨p.program, e.repertoire, e.interval⟩ hpart) turns _ _ hbegin
  rw [perform_of_idle hidle hstarts]
  dsimp only
  -- the end of the run shows no frame
  rw [frames_append, frames_conclude, List.append_nil]
  exact hr.frames

/-- **Places are finite in every frame of every run**, and so are sizes. If all the blocks that were
carried out are calm, then so are headings; and where each of its floats is found again by its digits,
the frame is read as it was written. -/
theorem frames_finite {e : Engine} (hidle : e.guard.held = false)
    (hpart : e.repertoire.IsPartOf .builtin) (p : Project) (clock : Nat) (turns : List Turn) :
    ∀ s ∈ frames (e.perform p clock turns).signals,
      (∀ f ∈ s.figures, isFinite f.position.x = true ∧ isFinite f.position.y = true ∧
        isFinite f.scale = true) ∧
      (Run.Calm (e.perform p clock turns).deeds → (∀ f ∈ s.figures, f.Finite) ∧
        (s.encode.FloatsReread → decodeSource Stage.decode s.encode.write = .ok s)) := by
  intro s hs
  have hbounds := frames_inBounds hidle hpart p clock turns s hs
  -- places and sizes in any case, headings where all was calm
  refine ⟨fun f hf => ?_, fun hcalm => ?_⟩
  · have hf' := hbounds f hf
    exact ⟨hf'.position.x.finite, hf'.position.y.finite, hf'.scale⟩
  · have hfinite : ∀ f ∈ s.figures, f.Finite := by
      intro f hf
      have hf' := hbounds f hf
      exact ⟨hf'.position.x.finite, hf'.position.y.finite, (hf'.heading hcalm).finite, hf'.scale⟩
    exact ⟨hfinite, Stage.decode_write hfinite⟩

/-- An actor who turns twice by the same degrees. -/
def sampleSpinning (degrees : Float) : Project where
  program := .ofBlocks
    [⟨"start", .start, .empty, [], some "once", []⟩,
      ⟨"once", .turnRight, .insert .empty "degrees" (.number degrees), [], some "again", []⟩,
      ⟨"again", .turnRight, .insert .empty "degrees" (.number degrees), [], none, []⟩]
  actors := [⟨"Cat", "Cat", "cat.png"⟩]
  backdrop := none

/-- The turns in which the sample comes to its end. -/
def spinningTurns : List Turn := List.replicate 14 (.chain 0)

/-- The stage after two turns by a right angle. -/
def sampleSpun : Stage := ⟨none, [⟨"Cat", "Cat", "cat.png", ⟨0.0, 0.0⟩, 180.0, 1.0, true, .silent⟩]⟩

/-- Turning twice by a right angle is calm, and the last frame is read as it was written. -/
theorem sampleSpinning_finite :
    (Engine.sample .sequential).guard.held = false ∧
      (∀ s ∈ frames ((Engine.sample .sequential).perform (sampleSpinning 90.0) 0
          spinningTurns).signals, ∀ f ∈ s.figures, f.Finite) ∧
      sampleSpun ∈ frames ((Engine.sample .sequential).perform (sampleSpinning 90.0) 0
          spinningTurns).signals ∧
      decodeSource Stage.decode sampleSpun.encode.write = .ok sampleSpun := by
  -- a right angle is far below the bound for calm turns
  have hdegrees : Within 968 90.0 := by
    refine ⟨rfl, ?_⟩
    have hvalue : value 90.0 = 90 := by
      show unpackedValue (.finite .positive (90 * 2 ^ 46) (-46) (by decide)) = _
      rw [unpackedValue_positive]
      norm_num
    have hseven : (90 : ℚ) ≤ 2 ^ (7 : ℤ) := by norm_num
    rw [hvalue, abs_of_pos (by norm_num)]
    exact hseven.trans (zpow_le_zpow_right₀ one_le_two (by decide))
  -- the start block has no degrees, and both turns have these
  have hdeeds : ∀ d ∈ ((Engine.sample .sequential).perform (sampleSpinning 90.0) 0 spinningTurns).deeds,
      d.block.number? "degrees" = none ∨ d.block.number? "degrees" = some 90.0 := by
    decide +kernel
  have hcalm : Run.Calm
      ((Engine.sample .sequential).perform (sampleSpinning 90.0) 0 spinningTurns).deeds := by
    intro d hd x hx
    rcases hdeeds d hd with hnone | hsome
    · exact nomatch hnone.symm.trans hx
    · obtain rfl := Option.some.inj (hsome.symm.trans hx)
      exact hdegrees
  have hframe : sampleSpun ∈ frames
      ((Engine.sample .sequential).perform (sampleSpinning 90.0) 0 spinningTurns).signals := by
    decide +kernel
  -- the four floats of the last frame are found again by their digits
  have hfloats : sampleSpun.encode.FloatsReread := by
    refine Value.floatsReread_of_numbers [180.0, 0.0, 0.0, 1.0] rfl ?_
    simp only [List.forall_mem_cons]
    exact ⟨rfl, rfl, rfl, rfl, nofun⟩
  refine ⟨rfl, fun s hs => ((frames_finite rfl (.refl _) _ 0 spinningTurns s hs).2 hcalm).1, hframe,
    ((frames_finite rfl (.refl _) _ 0 spinningTurns _ hframe).2 hcalm).2 hfloats⟩

/-- **Turning twice by very many degrees is not**: the run is completed, but its last frame shows a
heading beyond all floats, and cannot be read again. -/
theorem sampleSpinning_overflows :
    ((Engine.sample .sequential).perform (sampleSpinning 1e308) 0 spinningTurns).result?
        = some (.report ⟨.completed, 3⟩) ∧
      ∃ s ∈ frames ((Engine.sample .sequential).perform (sampleSpinning 1e308) 0
          spinningTurns).signals,
        (∃ f ∈ s.figures, isFinite f.heading = false) ∧
          (decodeSource Stage.decode s.encode.write).toOption = none := by
  decide +kernel

end Engine

end StagePlay
