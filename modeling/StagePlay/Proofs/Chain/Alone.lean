import StagePlay.Proofs.Chain.Step

/-!
# Chains by themselves

A chain looks at nothing but its own script and the figure of its owner, and changes nothing but that
figure; and times do not matter to what it does, only to when. So its course can be told without
those of the others: `Alone` is a chain with a stage of its own, and `Alone.after` is where it has
come to after some steps.

* `Chain.step_congr`: two chains that differ in their times alone, on stages on which their owner has
  the same figure, take the same step.
* `Alone.after_eq_of_ended`: a chain by itself comes to one end at most, whatever the number of steps,
  and carries out the same blocks on the way.
-/

namespace StagePlay

/-! ### Times -/

/-- A rest whatever its times are. What is left of a wait is that it is one, and of a motion its
course, the number of the next frame and what it changes. -/
def Rest.timeless : Rest → Rest
  | .pause _ => .pause 0
  | .frame _ tween k m => .frame 0 tween k m

def Chain.State.timeless : Chain.State → Chain.State
  | .resting rest => .resting rest.timeless
  | state => state

/-- A chain whatever its times are. Two chains that are equal up to this do the same, though perhaps
not at the same time. -/
def Chain.timeless (c : Chain) : Chain := { c with clock := 0, state := c.state.timeless }

namespace Chain

theorem State.timeless_eq_walking {state : State} :
    state.timeless = .walking ↔ state = .walking := by
  cases state <;> simp [State.timeless]

theorem State.timeless_eq_pause {state : State} :
    state.timeless = .resting (.pause 0) ↔ ∃ wake, state = .resting (.pause wake) := by
  match state with
  | .resting (.pause wake) => simp [State.timeless, Rest.timeless]
  | .resting (.frame start tween k m) => simp [State.timeless, Rest.timeless]
  | .walking | .ended how => simp [State.timeless]

theorem State.timeless_eq_frame {state : State} {tween : Tween} {k : Nat} {m : Motion} :
    state.timeless = .resting (.frame 0 tween k m) ↔
      ∃ start, state = .resting (.frame start tween k m) := by
  match state with
  | .resting (.pause wake) => simp [State.timeless, Rest.timeless]
  | .resting (.frame start tween k m) => simp [State.timeless, Rest.timeless]
  | .walking | .ended how => simp [State.timeless]

theorem ending?_timeless (c : Chain) : c.timeless.ending? = c.ending? := by
  obtain ⟨owner, clock, script, state⟩ := c
  cases state <;> rfl

theorem entering?_timeless (c : Chain) (cancelled : Bool) :
    c.timeless.entering? cancelled = c.entering? cancelled := by
  obtain ⟨owner, clock, script, state⟩ := c
  cases state <;> rfl

/-- Times do not matter to how a chain goes on: a wait or a motion begins at the clock of the chain,
and that is the only time in it. -/
theorem timeless_lapse {c c' : Chain} (hc : c.timeless = c'.timeless) (interval : Duration)
    (ts : List Task) (l : Lapse) :
    (c.lapse interval ts l).timeless = (c'.lapse interval ts l).timeless := by
  obtain ⟨owner, clock, script, state⟩ := c
  obtain ⟨owner', clock', script', state'⟩ := c'
  obtain ⟨rfl, rfl, -⟩ : owner = owner' ∧ script = script' ∧ _ := by simpa [timeless] using hc
  cases l with
  | goOn | giveUp | breakDown => rfl
  | pause d => simp only [lapse, timeless, State.timeless, Rest.timeless]
  | animate d m => simp only [lapse, timeless, State.timeless, Rest.timeless]

section Congr

variable {score : Score} {scene scene' : Scene} {c c' : Chain}

/-- **Two chains that take the same step**, each on its stage: they differ in their times alone, and
the figure of their owner goes through the same function `g`. The function says what happened to the
figure without saying which stage it is on, so the stages may differ in everything else. -/
structure StepAlike (owner : Option String) (scene scene' : Scene)
    (after after' : Chain × Scene × List Signal) : Prop where
  chain : after.1.timeless = after'.1.timeless
  stage : ∃ g, KeepsId g ∧ after.2.1.stage = scene.stage.alter owner g ∧
    after'.2.1.stage = scene'.stage.alter owner g

/-- Chains that leave their stages alone. The function is the identity. -/
theorem StepAlike.still {owner : Option String} (hc : c.timeless = c'.timeless) :
    StepAlike owner scene scene' (c, scene, []) (c', scene', []) where
  chain := hc
  stage := ⟨id, keepsId_id, (Stage.alter_id _).symm, (Stage.alter_id _).symm⟩

/-- Two chains that carry out the same block see the same figure, so the block does the same for
both of them. -/
theorem StepAlike.enter (hpart : score.repertoire.IsPartOf .builtin)
    (hc : c.timeless = c'.timeless) (howner : c'.owner = c.owner)
    (hfigure : scene.stage.figureOf? c.owner = scene'.stage.figureOf? c.owner) (b : Block)
    (ts : List Task) :
    StepAlike c.owner scene scene' (c.enter score scene b ts) (c'.enter score scene' b ts) := by
  -- what the block does is seen from the figure of the owner
  have hact : c'.actOf score scene' b = c.actOf score scene b := by
    refine (hpart.act_congr b ?_).symm
    change scene.stage.figureOf? c.owner = scene'.stage.figureOf? c'.owner
    rw [howner, hfigure]
  refine ⟨?_, (c.actOf score scene b).touch, Act.keepsId_touch _, ?_, ?_⟩
  -- how the chains go on, and then what was done at once to either stage
  · rw [enter_chain, enter_chain, hact]
    exact timeless_lapse hc _ _ _
  · rw [(c.enter_does b ts).scene_eq]
  · rw [(c'.enter_does b ts).scene_eq, hact, howner]

/-- Two chains that show the same frame of the same motion, whenever it began for either. -/
theorem StepAlike.frame {start start' : Nat} (hc : c.timeless = c'.timeless)
    (howner : c'.owner = c.owner) (tween : Tween) (k : Nat) (m : Motion) :
    StepAlike c.owner scene scene' (c.resume scene (.frame start tween k m))
      (c'.resume scene' (.frame start' tween k m)) := by
  refine ⟨?_, (·.apply (m.change (tween.progress k))), keepsId_apply _, ?_, ?_⟩
  · have hscript : c'.script = c.script := (congrArg Chain.script hc).symm
    rw [resume_frame_chain, resume_frame_chain]
    unfold timeless
    dsimp only
    rw [howner, hscript]
    -- after the last frame both walk on, and otherwise both wait for the next one
    split <;> rfl
  · rw [(c.resume_frame_does start tween k m).scene_eq]
  · rw [(c'.resume_frame_does start' tween k m).scene_eq, howner]

/-- Chains that rest go on alike, whatever the time is. The rest of the second is a rest of the same
kind, since their states agree up to times. -/
theorem StepAlike.of_resting (hcalled : scene.cancelled = false) (hcalled' : scene'.cancelled = false)
    (hc : c.timeless = c'.timeless) {rest : Rest} (hs : c.state = .resting rest) :
    StepAlike c.owner scene scene' (c.step score scene) (c'.step score scene') := by
  have howner : c'.owner = c.owner := (congrArg Chain.owner hc).symm
  have hscript : c'.script = c.script := (congrArg Chain.script hc).symm
  have hstate : c'.state.timeless = c.state.timeless := (congrArg Chain.state hc).symm
  rw [hs] at hstate
  unfold step
  rw [hs]
  cases rest with
  | pause wake =>
    obtain ⟨wake', hs'⟩ := State.timeless_eq_pause.mp hstate
    rw [hs']
    simp only [hcalled, hcalled', Bool.false_eq_true, if_false]
    refine .still ?_
    unfold timeless
    dsimp only
    rw [howner, hscript]
  | frame start tween k m =>
    obtain ⟨start', hs'⟩ := State.timeless_eq_frame.mp hstate
    rw [hs']
    simp only [hcalled, hcalled', Bool.false_eq_true, if_false]
    exact .frame hc howner tween k m

/-- Chains that walk find the same task in their scripts. Carrying out a block is the one case in
which the figure of the owner is looked at; in all others both stages stay as they are. -/
theorem StepAlike.of_walking (hpart : score.repertoire.IsPartOf .builtin)
    (hcalled : scene.cancelled = false) (hcalled' : scene'.cancelled = false)
    (hc : c.timeless = c'.timeless)
    (hfigure : scene.stage.figureOf? c.owner = scene'.stage.figureOf? c.owner)
    (hs : c.state = .walking) :
    StepAlike c.owner scene scene' (c.step score scene) (c'.step score scene') := by
  have howner : c'.owner = c.owner := (congrArg Chain.owner hc).symm
  have hscript : c'.script = c.script := (congrArg Chain.script hc).symm
  have hs' : c'.state = .walking :=
    State.timeless_eq_walking.mp ((congrArg Chain.state hc).symm.trans (congrArg State.timeless hs))
  -- with any script, as long as it is the same one, they differ in their times alone
  have hwalk : ∀ ts, ({ c with script := ts, state := .walking } : Chain).timeless =
      { c' with script := ts, state := .walking }.timeless := by
    intro ts
    unfold timeless
    dsimp only
    rw [howner]
  unfold step
  rw [hs, hs', hscript]
  dsimp only
  cases hts : c.script with
  | nil =>
    -- both are completed
    refine .still ?_
    unfold finish timeless
    dsimp only
    rw [howner, hscript]
  | cons t ts =>
    cases t with
    | enter b =>
      simp only [hcalled, hcalled', Bool.false_eq_true, if_false]
      exact .enter hpart hc howner hfigure b ts
    | visit id =>
      -- both look it up in the same program
      cases hfind : score.program.find? id with
      | none =>
        simp only [hfind]
        exact .still (hwalk ts)
      | some b =>
        simp only [hfind]
        exact .still (hwalk _)
    | rounds b left =>
      cases left with
      -- no round is left to either, or both begin one
      | zero => exact .still (hwalk ts)
      | succ left =>
        simp only [hcalled, hcalled', Bool.false_eq_true, if_false]
        exact .still (hwalk _)

/-- **A step depends on the script and the figure of the owner alone**, and changes nothing beyond
that figure. This is what makes chains of different owners independent of each other: whatever the
others do to the stage in between, it is the same step. -/
theorem step_congr (hpart : score.repertoire.IsPartOf .builtin) (hcalled : scene.cancelled = false)
    (hcalled' : scene'.cancelled = false) (hc : c.timeless = c'.timeless)
    (hfigure : scene.stage.figureOf? c.owner = scene'.stage.figureOf? c.owner) :
    StepAlike c.owner scene scene' (c.step score scene) (c'.step score scene') := by
  cases hs : c.state with
  | ended how =>
    have hending : c.ending? = some how := ending?_eq_some.mpr hs
    have hending' : c'.ending? = some how := by
      rw [← ending?_timeless, ← hc, ending?_timeless, hending]
    rw [step_of_ending hending, step_of_ending hending']
    exact .still hc
  | resting rest => exact .of_resting hcalled hcalled' hc hs
  | walking => exact .of_walking hpart hcalled hcalled' hc hfigure hs

/-- **A step puts the figure of the owner through a function**, and does nothing else to the stage.
It is the case of `step_congr` in which a chain is compared with itself. -/
theorem step_alters (hpart : score.repertoire.IsPartOf .builtin) (hcalled : scene.cancelled = false)
    (c : Chain) :
    ∃ g, KeepsId g ∧ (c.step score scene).2.1.stage = scene.stage.alter c.owner g := by
  have halike : StepAlike c.owner scene scene (c.step score scene) (c.step score scene) :=
    step_congr hpart hcalled hcalled rfl rfl
  obtain ⟨g, hg, hstage, -⟩ := halike.stage
  exact ⟨g, hg, hstage⟩

end Congr

end Chain

/-! ### A chain by itself -/

/-- **A chain by itself**, with a stage of its own, on which nobody else ever changes anything. -/
structure Alone where
  chain : Chain
  stage : Stage

namespace Alone

section After

variable (score : Score) (x : Alone)

/-- The chain one step further. The number of blocks carried out so far and the flag of the stop are
those of a fresh scene, as no step looks at the number and nothing is ever called off here. -/
def next : Alone :=
  ⟨(x.chain.step score ⟨x.stage, 0, false⟩).1, (x.chain.step score ⟨x.stage, 0, false⟩).2.1.stage⟩

/-- **Where a chain by itself has come to** after some steps. -/
def after : Nat → Alone
  | 0 => x
  | n + 1 => (after n).next score

/-- The blocks that it has carried out by then. -/
def blocks : Nat → List Block
  | 0 => []
  | n + 1 => blocks n ++ ((x.after score n).chain.entering? false).toList

variable {score} {x}

/-- At its end, a chain by itself stays, and carries out nothing more. -/
theorem after_add_of_ended {m : Nat} {how : Ending}
    (h : (x.after score m).chain.ending? = some how) (k : Nat) :
    x.after score (m + k) = x.after score m ∧ x.blocks score (m + k) = x.blocks score m := by
  induction k with
  | zero => exact ⟨rfl, rfl⟩
  | succ k ih =>
    obtain ⟨hafter, hblocks⟩ := ih
    have hended : (x.after score (m + k)).chain.ending? = some how := by rw [hafter, h]
    constructor
    · change (x.after score (m + k)).next score = _
      unfold next
      rw [Chain.step_of_ending hended]
      exact hafter
    · change x.blocks score (m + k) ++ ((x.after score (m + k)).chain.entering? false).toList = _
      rw [Chain.entering?_of_ending hended, hblocks]
      exact List.append_nil _

/-- **A chain by itself has one end at most**, and one way there. Of two numbers of steps that lead
to an end the greater one only adds steps that change nothing. -/
theorem after_eq_of_ended {m m' : Nat} {how how' : Ending}
    (h : (x.after score m).chain.ending? = some how)
    (h' : (x.after score m').chain.ending? = some how') :
    x.after score m = x.after score m' ∧ x.blocks score m = x.blocks score m' := by
  rcases Nat.le_total m m' with hle | hle
  · obtain ⟨k, rfl⟩ := Nat.exists_eq_add_of_le hle
    obtain ⟨hafter, hblocks⟩ := after_add_of_ended h k
    exact ⟨hafter.symm, hblocks.symm⟩
  · obtain ⟨k, rfl⟩ := Nat.exists_eq_add_of_le hle
    exact after_add_of_ended h' k

end After

/-- **A chain among others that goes as it goes by itself**: times apart it is where the chain by
itself is, and its owner has the same figure. The invariant of the chains of a run in which each
actor has one chain; it is kept by the steps of the chain (`Mirrors.step`) and by those of all
others (`Mirrors.alter`). -/
structure Mirrors (x : Alone) (c : Chain) (s : Stage) : Prop where
  chain : c.timeless = x.chain.timeless
  figure : s.figureOf? c.owner = x.stage.figureOf? c.owner

section Mirrors

variable {score : Score} {x : Alone} {c c' : Chain} {s : Stage}

theorem Mirrors.owner_eq (h : x.Mirrors c s) : x.chain.owner = c.owner :=
  (congrArg Chain.owner h.chain).symm

theorem Mirrors.ending?_eq (h : x.Mirrors c s) : x.chain.ending? = c.ending? := by
  rw [← Chain.ending?_timeless c, h.chain, Chain.ending?_timeless]

theorem Mirrors.entering?_eq (h : x.Mirrors c s) (off : Bool) :
    x.chain.entering? off = c.entering? off := by
  rw [← Chain.entering?_timeless c, h.chain, Chain.entering?_timeless]

/-- Times do not matter. -/
theorem Mirrors.of_timeless (h : x.Mirrors c s) (hc : c'.timeless = c.timeless) :
    x.Mirrors c' s where
  chain := hc.trans h.chain
  figure := by
    have howner : c'.owner = c.owner := (congrArg Chain.owner hc.symm).symm
    rw [howner]
    exact h.figure

/-- **A step of its own** keeps a chain where it would be by itself. -/
theorem Mirrors.step (hpart : score.repertoire.IsPartOf .builtin) (h : x.Mirrors c s) (n : Nat) :
    (x.next score).Mirrors (c.step score ⟨s, n, false⟩).1
      (c.step score ⟨s, n, false⟩).2.1.stage := by
  have halike : Chain.StepAlike c.owner ⟨s, n, false⟩ ⟨x.stage, 0, false⟩
      (c.step score ⟨s, n, false⟩) (x.chain.step score ⟨x.stage, 0, false⟩) :=
    Chain.step_congr hpart rfl rfl h.chain h.figure
  obtain ⟨hchain, g, hg, hstage, hstage'⟩ := halike
  refine ⟨hchain, ?_⟩
  unfold next
  -- both figures have gone through `g`, and they were the same before
  rw [Chain.owner_step rfl, hstage, hstage', Stage.figureOf?_alter_self hg,
    Stage.figureOf?_alter_self hg, h.figure]

/-- **A step of another chain** does so too, unless the two have one owner who is on the stage. If
the owners are the same and nobody is there, the other chain changes no figure at all. -/
theorem Mirrors.alter (h : x.Mirrors c s) {owner : Option String} {g : Figure → Figure}
    (hg : KeepsId g) (hapart : c.owner = owner → s.figureOf? owner = none) :
    x.Mirrors c (s.alter owner g) where
  chain := h.chain
  figure := by
    by_cases howner : c.owner = owner
    · rw [Stage.alter_of_figureOf?_eq_none (hapart howner)]
      exact h.figure
    · rw [Stage.figureOf?_alter_of_ne hg howner]
      exact h.figure

end Mirrors

end Alone

end StagePlay
