import StagePlay.Proofs.Program.Unfolding
import StagePlay.Proofs.Routine.Effect

/-!
# Steps of a chain

What one step of a chain can be, and what each step keeps.

* `Chain.entering?` is the block that the next step carries out, if it carries out one;
* `Chain.step_cases` lists the steps, so that a proof about all of them is a proof for each, and
  `Chain.step_cases_of_cancelled` those of a chain that is called off;
* `Chain.step_performs`: what the script performs after a step, behind the block that the step
  carried out, is what it performed before;
* `Chain.step_landed`: a chain in motion is seen under way, but where it will have landed
  (`Chain.landed`) is changed by nothing but the effect of the block that a step carries out;
* `Chain.step_counted`, `Chain.step_unknowns`: the blocks carried out are counted, and those of
  kinds without a routine are announced.
-/

namespace StagePlay

/-! ### Signals -/

/-- The blocks among some signals whose operation is not known, each with its kind. Everything else
that is sent is left out, and their order is kept. -/
def unknowns (signals : List Signal) : List (String × String) :=
  signals.filterMap fun
    | .event (.unknownOperation b kind) => some (b, kind)
    | _ => none

/-- The last state of a stage that some signals show, which is `s` if they show none. Frames are
always sent in full, so the last of them is all that a viewer needs. -/
def lastShown (s : Stage) (signals : List Signal) : Stage :=
  signals.foldl (fun s signal => match signal with
    | .frame s' => s'
    | _ => s) s

@[simp] theorem unknowns_nil : unknowns [] = [] := rfl

@[simp] theorem unknowns_append (l l' : List Signal) :
    unknowns (l ++ l') = unknowns l ++ unknowns l' := List.filterMap_append

@[simp] theorem lastShown_nil (s : Stage) : lastShown s [] = s := rfl

@[simp] theorem lastShown_append (s : Stage) (l l' : List Signal) :
    lastShown s (l ++ l') = lastShown (lastShown s l) l' := List.foldl_append

/-- The block and its kind, if the kind has no routine. Carrying such a block out does nothing to
the stage, but it is announced. -/
def Repertoire.unknown? (r : Repertoire) (b : Block) : Option (String × String) :=
  if r.contains b.operation.tag then none else some (b.id, b.operation.tag)

/-! ### What is done at once -/

namespace Scene

/-- **What was done at once** in a scene: a function on the figure of the owner, shown in full, and
some kinds announced for a block. -/
structure Does (s : Scene) (owner : Option String) (b : String) (g : Figure → Figure)
    (kinds : List String) (done : Scene × List Signal) : Prop where
  scene_eq : done.1 = { s with stage := s.stage.alter owner g }
  unknowns_eq : unknowns done.2 = kinds.map fun kind => (b, kind)
  lastShown_eq : lastShown s.stage done.2 = done.1.stage

theorem change_does (s : Scene) (owner : Option String) (b : String) (c : Change) :
    s.Does owner b (·.apply c) [] (s.change owner c) := by
  unfold change
  cases owner with
  -- a chain without an owner changes nothing and shows nothing
  | none => exact ⟨rfl, rfl, rfl⟩
  | some id =>
    rw [Option.bind_some, Stage.change?_eq]
    cases hf : s.stage.figureOf? (some id) with
    | none =>
      -- the owner is not on the stage, so there is no figure that `alter` would meet
      refine ⟨?_, rfl, rfl⟩
      rw [Stage.alter_of_figureOf?_eq_none hf]
      rfl
    | some f => exact ⟨rfl, rfl, rfl⟩

theorem perform_does (s : Scene) (owner : Option String) (b : Block) (e : Effect) :
    s.Does owner b.id e.touch (announced [e]) (s.perform owner b e) := by
  cases e with
  | change c => exact s.change_does owner b.id c
  | announce kind =>
    refine ⟨?_, rfl, rfl⟩
    rw [show (Effect.announce kind).touch = id from rfl, Stage.alter_id]
    rfl
  | note =>
    refine ⟨?_, rfl, rfl⟩
    rw [show Effect.note.touch = id from rfl, Stage.alter_id]
    rfl

theorem performAll_does (owner : Option String) (b : Block) (es : List Effect) (s : Scene) :
    s.Does owner b.id (touchAll es) (announced es) (s.performAll owner b es) := by
  induction es generalizing s with
  | nil =>
    refine ⟨?_, rfl, rfl⟩
    rw [show touchAll [] = id from rfl, Stage.alter_id]
    rfl
  | cons e es ih =>
    -- the effects of one block are done one after the other: their functions are composed, what
    -- they announce and show is appended
    have hfirst := s.perform_does owner b e
    have hrest := ih (s.perform owner b e).1
    refine ⟨?_, ?_, ?_⟩
    · rw [show (s.performAll owner b (e :: es)).1
          = ((s.perform owner b e).1.performAll owner b es).1 from rfl, hrest.scene_eq,
        hfirst.scene_eq, Stage.alter_alter e.keepsId_touch]
      rfl
    · rw [show (s.performAll owner b (e :: es)).2 = (s.perform owner b e).2
          ++ ((s.perform owner b e).1.performAll owner b es).2 from rfl, unknowns_append,
        hfirst.unknowns_eq, hrest.unknowns_eq, ← List.map_append, announced, announced, announced,
        ← List.filterMap_append]
      rfl
    · rw [show (s.performAll owner b (e :: es)).2 = (s.perform owner b e).2
          ++ ((s.perform owner b e).1.performAll owner b es).2 from rfl, lastShown_append,
        hfirst.lastShown_eq, hrest.lastShown_eq]
      rfl

end Scene

/-! ### The steps -/

namespace Chain

/-- The block that the next step of a chain carries out, if it carries out one: the chain is on its
way, a block is next in its script, and the run has not been called off. All other steps rest, move
a figure on, or find the way in the script, and none of these counts as a block. -/
def entering? (c : Chain) (cancelled : Bool) : Option Block :=
  match c.state, c.script with
  | .walking, .enter b :: _ => if cancelled then none else some b
  | _, _ => none

theorem entering?_true (c : Chain) : c.entering? true = none := by
  unfold entering?
  split <;> rfl

theorem ending?_eq_some {c : Chain} {how : Ending} :
    c.ending? = some how ↔ c.state = .ended how := by
  unfold ending?
  cases c.state with
  | ended how' => simp
  | walking | resting => simp

/-- A chain that has ended does nothing any more. -/
theorem step_of_ending {c : Chain} {how : Ending} (h : c.ending? = some how) (score : Score)
    (scene : Scene) : c.step score scene = (c, scene, []) := by
  unfold step
  rw [ending?_eq_some.mp h]

theorem entering?_of_ending {c : Chain} {how : Ending} (h : c.ending? = some how)
    (cancelled : Bool) : c.entering? cancelled = none := by
  unfold entering?
  rw [ending?_eq_some.mp h]

/-- **The steps of a chain** while nothing is called off, each with the block that it carries out.
The cases are those of the state and, for a chain on its way, of the first task in its script, so a
proof about all steps is a proof for each of them and never unfolds `step` again. -/
theorem step_cases {score : Score} {scene : Scene} (hcalled : scene.cancelled = false) (c : Chain)
    {motive : Chain × Scene × List Signal → Option Block → Prop}
    -- a chain that has ended stays as it is
    (ended : ∀ how, c.state = .ended how → motive (c, scene, []) none)
    -- a wait is over: the clock of the chain moves on to its end
    (pause : ∀ wake, c.state = .resting (.pause wake) →
      motive ({ c with clock := wake, state := .walking }, scene, []) none)
    -- the next frame of a motion is shown
    (frame : ∀ start tween k m, c.state = .resting (.frame start tween k m) →
      motive (c.resume scene (.frame start tween k m)) none)
    -- nothing is left in the script
    (finish : c.state = .walking → c.script = [] →
      motive (c.finish .completed, scene, []) none)
    -- a block is carried out, the only step that counts one
    (enter : ∀ b ts, c.state = .walking → c.script = .enter b :: ts →
      motive (c.enter score scene b ts) (some b))
    -- an id that no block has is passed over
    (dangling : ∀ id ts, c.state = .walking → c.script = .visit id :: ts →
      score.program.find? id = none → motive ({ c with script := ts }, scene, []) none)
    -- an id is looked up, and its block comes next
    (found : ∀ id b ts, c.state = .walking → c.script = .visit id :: ts →
      score.program.find? id = some b →
        motive ({ c with script := .enter b :: ts }, scene, []) none)
    -- the rounds of a block are used up
    (spent : ∀ b ts, c.state = .walking → c.script = .rounds b 0 :: ts →
      motive ({ c with script := ts }, scene, []) none)
    -- another round of a block begins: its children come next
    (round : ∀ b left ts, c.state = .walking → c.script = .rounds b (left + 1) :: ts →
      motive ({ c with script := b.children.map .visit ++ .rounds b left :: ts }, scene, []) none) :
    motive (c.step score scene) (c.entering? false) := by
  -- with the chain taken apart, each branch of `step` is one of the cases by definition
  obtain ⟨owner, clock, script, state⟩ := c
  unfold step entering?
  cases state with
  | ended how => exact ended how rfl
  | resting rest =>
    simp only [hcalled, Bool.false_eq_true, if_false]
    cases rest with
    | pause wake => exact pause wake rfl
    | frame start tween k m => exact frame start tween k m rfl
  | walking =>
    cases script with
    | nil => exact finish rfl rfl
    | cons t ts =>
      cases t with
      | enter b =>
        simp only [hcalled, Bool.false_eq_true, if_false]
        exact enter b ts rfl rfl
      | visit id =>
        cases hfind : score.program.find? id with
        | none => simpa only [hfind] using dangling id ts rfl rfl hfind
        | some b => simpa only [hfind] using found id b ts rfl rfl hfind
      | rounds b left =>
        cases left with
        | zero => exact spent b ts rfl rfl
        | succ left =>
          simp only [hcalled, Bool.false_eq_true, if_false]
          exact round b left ts rfl rfl

/-- **The steps of a chain that is called off**: it is ended wherever it would go on with anything, and
otherwise comes to its end by itself or finds its way in its script. -/
theorem step_cases_of_cancelled {score : Score} {scene : Scene} (hcalled : scene.cancelled = true)
    (c : Chain) {motive : Chain × Scene × List Signal → Prop}
    -- a chain that has ended stays as it is
    (ended : ∀ how, c.state = .ended how → motive (c, scene, []))
    -- resting, about to carry out a block or to begin a round, it is ended as cancelled
    (calledOff : c.ending? = none → motive (c.finish .cancelled, scene, []))
    -- a script that is through is completed even now
    (finish : c.state = .walking → c.script = [] → motive (c.finish .completed, scene, []))
    -- finding the way in the script is not stopped, as it does nothing
    (dangling : ∀ id ts, c.state = .walking → c.script = .visit id :: ts →
      score.program.find? id = none → motive ({ c with script := ts }, scene, []))
    (found : ∀ id b ts, c.state = .walking → c.script = .visit id :: ts →
      score.program.find? id = some b → motive ({ c with script := .enter b :: ts }, scene, []))
    (spent : ∀ b ts, c.state = .walking → c.script = .rounds b 0 :: ts →
      motive ({ c with script := ts }, scene, [])) :
    motive (c.step score scene) := by
  obtain ⟨owner, clock, script, state⟩ := c
  unfold step
  cases state with
  | ended how => exact ended how rfl
  | resting rest =>
    simp only [hcalled, if_true]
    exact calledOff rfl
  | walking =>
    cases script with
    | nil => exact finish rfl rfl
    | cons t ts =>
      cases t with
      | enter b =>
        simp only [hcalled, if_true]
        exact calledOff rfl
      | visit id =>
        cases hfind : score.program.find? id with
        | none => simpa only [hfind] using dangling id ts rfl rfl hfind
        | some b => simpa only [hfind] using found id b ts rfl rfl hfind
      | rounds b left =>
        cases left with
        | zero => exact spent b ts rfl rfl
        | succ left =>
          simp only [hcalled, if_true]
          exact calledOff rfl

/-- A chain that is called off does nothing to the scene. Whichever case its step is, the scene is
handed back and nothing is sent. -/
theorem step_of_cancelled {score : Score} {scene : Scene} (hcalled : scene.cancelled = true)
    (c : Chain) : (c.step score scene).2 = (scene, []) :=
  c.step_cases_of_cancelled hcalled (motive := fun r => r.2 = (scene, [])) (fun _ _ => rfl)
    (fun _ => rfl) (fun _ _ => rfl) (fun _ _ _ _ _ => rfl) (fun _ _ _ _ _ _ => rfl)
    fun _ _ _ _ => rfl

/-! ### What a step keeps, whatever the routines do -/

section Step

variable {score : Score} {scene : Scene}

/-- What a block does for a chain. The routine sees the block counted already, since a block is
counted before it is carried out. -/
def actOf (c : Chain) (score : Score) (scene : Scene) (b : Block) : Act :=
  score.repertoire.act ({ scene with operations := scene.operations + 1 }.cue c.owner) b

theorem enter_chain (c : Chain) (b : Block) (ts : List Task) :
    (c.enter score scene b ts).1 = c.lapse score.interval
      (.rounds b b.rounds :: (b.following ++ ts)) (c.actOf score scene b).lapse := rfl

theorem enter_does (c : Chain) (b : Block) (ts : List Task) :
    { scene with operations := scene.operations + 1 }.Does c.owner b.id
      (c.actOf score scene b).touch (announced (c.actOf score scene b).effects)
      (c.enter score scene b ts).2 :=
  Scene.performAll_does c.owner b _ _

/-- A frame leaves a chain with its owner and its script. -/
theorem resume_frame_chain (c : Chain) (start : Nat) (tween : Tween) (k : Nat) (m : Motion) :
    (c.resume scene (.frame start tween k m)).1 = { c with
      clock := start + tween.offset k
      state := if tween.isLast k then .walking else .resting (.frame start tween (k + 1) m) } := rfl

theorem resume_frame_does (c : Chain) (start : Nat) (tween : Tween) (k : Nat) (m : Motion) :
    scene.Does c.owner "" (·.apply (m.change (tween.progress k))) []
      (c.resume scene (.frame start tween k m)).2 :=
  scene.change_does c.owner "" _

@[simp] theorem owner_lapse (c : Chain) (interval : Duration) (ts : List Task) (l : Lapse) :
    (c.lapse interval ts l).owner = c.owner := by
  cases l <;> rfl

/-- A chain stays with its owner. -/
@[simp] theorem owner_step (hcalled : scene.cancelled = false) (c : Chain) :
    (c.step score scene).1.owner = c.owner := by
  refine c.step_cases hcalled (motive := fun r _ => r.1.owner = c.owner)
    ?ended ?pause ?frame ?finish ?enter ?dangling ?found ?spent ?round
  -- only these two steps build the chain anew, the others change its clock, script or state
  case frame =>
    intro start tween k m _
    rw [resume_frame_chain]
  case enter =>
    intro b ts _ _
    rw [enter_chain, owner_lapse]
  all_goals intros; rfl

/-- **The blocks carried out are counted.** The counter goes up by one in the step that carries out
a block, whatever the block does, and in no other one. -/
theorem step_counted (c : Chain) :
    (c.step score scene).2.1.operations
      = scene.operations + (c.entering? scene.cancelled).toList.length := by
  cases hcalled : scene.cancelled with
  | true =>
    rw [step_of_cancelled hcalled, entering?_true]
    rfl
  | false => ?_
  refine c.step_cases hcalled
    (motive := fun r b? => r.2.1.operations = scene.operations + b?.toList.length)
    ?ended ?pause ?frame ?finish ?enter ?dangling ?found ?spent ?round
  case frame =>
    -- a frame and the effects of a block change the stage of the scene and leave its counter alone
    intro start tween k m _
    rw [(c.resume_frame_does start tween k m).scene_eq]
    rfl
  case enter =>
    intro b ts _ _
    rw [(c.enter_does b ts).scene_eq]
    rfl
  all_goals intros; rfl

/-- What the signals of a step show last is the stage after it, so nothing that a step does to the
stage remains unseen. -/
theorem step_lastShown (c : Chain) :
    lastShown scene.stage (c.step score scene).2.2 = (c.step score scene).2.1.stage := by
  cases hcalled : scene.cancelled with
  | true =>
    rw [step_of_cancelled hcalled]
    rfl
  | false => ?_
  refine c.step_cases hcalled (motive := fun r _ => lastShown scene.stage r.2.2 = r.2.1.stage)
    ?ended ?pause ?frame ?finish ?enter ?dangling ?found ?spent ?round
  case frame => exact fun start tween k m _ => (c.resume_frame_does start tween k m).lastShown_eq
  case enter => exact fun b ts _ _ => (c.enter_does b ts).lastShown_eq
  all_goals intros; rfl

end Step

/-! ### What a step keeps in a part of the language -/

/-- What the motion that a chain is in makes of a figure at its end. A chain that is in no motion
makes nothing of it. -/
def State.land : Chain.State → Figure → Figure
  | .resting (.frame _ _ _ m), f => f.apply m.landing
  | _, f => f

/-- **Where a stage will be** once the motion that a chain is in has ended. Seen from there, a
motion has its whole effect in the step that begins it, and none of its frames changes anything. -/
def landed (c : Chain) (s : Stage) : Stage := s.alter c.owner c.state.land

theorem landed_of_land_eq_id {c : Chain} (hc : c.state.land = id) (s : Stage) :
    c.landed s = s := by
  unfold landed
  rw [hc, Stage.alter_id]

/-- Chains that are in no motion leave the stage as it is. -/
theorem landed_eq_landed {c c' : Chain} (hc : c.state.land = id) (hc' : c'.state.land = id)
    (s : Stage) : c.landed s = c'.landed s :=
  (landed_of_land_eq_id hc s).trans (landed_of_land_eq_id hc' s).symm

section Part

variable {score : Score} {scene : Scene} (hpart : score.repertoire.IsPartOf .builtin)
  (hcalled : scene.cancelled = false)

/-- A lapse after which a chain goes on leaves it with the script that follows. -/
theorem script_lapse (c : Chain) (interval : Duration) (ts : List Task) {l : Lapse}
    (hl : l ≠ .giveUp ∧ l ≠ .breakDown) : (c.lapse interval ts l).script = ts := by
  cases l with
  | giveUp => exact absurd rfl hl.1
  | breakDown => exact absurd rfl hl.2
  | goOn | pause | animate => rfl

/-- A lapse after which a chain goes on does not end it. -/
theorem state_lapse_ne_ended (c : Chain) (interval : Duration) (ts : List Task) {l : Lapse}
    (hl : l ≠ .giveUp ∧ l ≠ .breakDown) (how : Ending) :
    (c.lapse interval ts l).state ≠ .ended how := by
  cases l with
  | giveUp => exact absurd rfl hl.1
  | breakDown => exact absurd rfl hl.2
  | goOn | pause | animate => simp [lapse]

theorem land_lapse (c : Chain) (interval : Duration) (ts : List Task) (l : Lapse) :
    (c.lapse interval ts l).state.land = l.land := by
  cases l <;> rfl

/-- **A frame** leaves a stage where the motion will end: it shows the figure somewhere under way,
and the end of the motion writes over all that a frame writes. -/
theorem landed_resume_frame (c : Chain) {start : Nat} {tween : Tween} {k : Nat} {m : Motion}
    (hstate : c.state = .resting (.frame start tween k m)) :
    (c.resume scene (.frame start tween k m)).1.landed
        (c.resume scene (.frame start tween k m)).2.1.stage = c.landed scene.stage := by
  have hland : c.landed scene.stage = scene.stage.alter c.owner (·.apply m.landing) := by
    unfold landed
    rw [hstate]
    rfl
  rw [(c.resume_frame_does start tween k m).scene_eq, hland]
  by_cases hlast : tween.isLast k
  · -- the last frame shows the end of the motion
    have hdone : (c.resume scene (.frame start tween k m)).1.state.land = id := by
      rw [resume_frame_chain]
      simp only [hlast, if_true]
      rfl
    rw [landed_of_land_eq_id hdone, m.change_eq_landing (of_decide_eq_true hlast)]
  · -- any other frame is overwritten by the end of the motion
    have hmoving : (c.resume scene (.frame start tween k m)).1.state.land
        = (·.apply m.landing) := by
      rw [resume_frame_chain]
      simp only [hlast, Bool.false_eq_true, if_false]
      rfl
    unfold landed
    rw [hmoving, resume_frame_chain]
    change (scene.stage.alter c.owner _).alter c.owner _ = _
    rw [Stage.alter_alter (keepsId_apply _)]
    exact Stage.alter_congr fun f _ => m.apply_change_apply_landing _ f

include hpart

/-- **A block that is carried out** has its whole effect where the motion that it begins will end. -/
theorem landed_enter (c : Chain) (b : Block) (ts : List Task) :
    (c.enter score scene b ts).1.landed (c.enter score scene b ts).2.1.stage =
      scene.stage.alter c.owner (score.repertoire.effect b) := by
  rw [(c.enter_does b ts).scene_eq]
  unfold landed
  rw [enter_chain, land_lapse, owner_lapse]
  change (scene.stage.alter c.owner _).alter c.owner _ = _
  -- what is done at once and where the motion then leads are one function on the figure of the
  -- owner
  rw [Stage.alter_alter (Act.keepsId_touch _)]
  exact Stage.alter_congr fun f hf => hpart.act_touch_land b hf

theorem actOf_goesOn (c : Chain) (b : Block) :
    (c.actOf score scene b).lapse ≠ .giveUp ∧ (c.actOf score scene b).lapse ≠ .breakDown :=
  hpart.act_goesOn _ b

/-- **Exactly the blocks of kinds without a routine are announced**, when they are carried out. A
routine of the language announces nothing, which is where it matters that the repertoire is a part
of the language. -/
theorem step_unknowns (c : Chain) :
    unknowns (c.step score scene).2.2
      = (c.entering? scene.cancelled).toList.filterMap score.repertoire.unknown? := by
  cases hcalled : scene.cancelled with
  | true =>
    rw [step_of_cancelled hcalled, entering?_true]
    rfl
  | false => ?_
  refine c.step_cases hcalled
    (motive := fun r b? => unknowns r.2.2 = b?.toList.filterMap score.repertoire.unknown?)
    ?ended ?pause ?frame ?finish ?enter ?dangling ?found ?spent ?round
  -- a frame announces nothing
  case frame => exact fun start tween k m _ => (c.resume_frame_does start tween k m).unknowns_eq
  case enter =>
    -- a block is announced once if its kind has no routine, and otherwise not at all
    intro b ts _ _
    rw [(c.enter_does b ts).unknowns_eq, actOf, hpart.announced_act]
    unfold Repertoire.unknown?
    simp only [Option.toList_some, List.filterMap_cons, List.filterMap_nil]
    split <;> rfl
  all_goals intros; rfl

include hcalled

/-- **A step undone in the script**: the block that it carries out comes before what is left. Each
step matches one rule of `Program.Performs`, the one that unfolds the first task of the script. -/
theorem step_performs (c : Chain) {l : List Block}
    (h : score.program.Performs (c.step score scene).1.script l) :
    score.program.Performs c.script ((c.entering? false).toList ++ l) := by
  revert h
  refine c.step_cases hcalled
    (motive := fun r b? => score.program.Performs r.1.script l →
      score.program.Performs c.script (b?.toList ++ l))
    ?ended ?pause ?frame ?finish ?enter ?dangling ?found ?spent ?round
  -- the script is not touched by these four
  case ended => exact fun _ _ h => h
  case pause => exact fun _ _ h => h
  case frame =>
    intro start tween k m _ h
    rwa [resume_frame_chain] at h
  case finish => exact fun _ _ h => h
  case enter =>
    -- here a block is carried out, so it stands in front of the rest
    intro b ts _ hscript h
    rw [enter_chain, script_lapse _ _ _ (c.actOf_goesOn hpart b)] at h
    rw [hscript]
    exact h.of_entered
  -- the other steps only rewrite the script, and carry out nothing
  case dangling =>
    intro id ts _ hscript hid h
    rw [hscript]
    exact h.of_dangling hid
  case found =>
    intro id b ts _ hscript hid h
    rw [hscript]
    exact h.of_found hid
  case spent =>
    intro b ts _ hscript h
    rw [hscript]
    exact h.of_spent
  case round =>
    intro b left ts _ hscript h
    rw [hscript]
    exact h.of_round

/-- **What a step does to the stage**, seen from where the motions end: nothing but the effect of
the block that it carries out. This makes the final stage of a run a fold over the blocks that were
carried out, whatever the frames in between have shown. -/
theorem step_landed (c : Chain) :
    (c.step score scene).1.landed (c.step score scene).2.1.stage
      = (c.entering? false).toList.foldl (fun s b => s.alter c.owner (score.repertoire.effect b))
          (c.landed scene.stage) := by
  have hwalking : c.state = .walking → c.state.land = id := fun h => by rw [h]; rfl
  refine c.step_cases hcalled
    (motive := fun r b? => r.1.landed r.2.1.stage
      = b?.toList.foldl (fun s b => s.alter c.owner (score.repertoire.effect b))
          (c.landed scene.stage))
    ?ended ?pause ?frame ?finish ?enter ?dangling ?found ?spent ?round
  case ended => exact fun _ _ => rfl
  -- before and after these steps the chain is in no motion, and the stage is the same
  case pause => exact fun wake hstate => landed_eq_landed rfl (by rw [hstate]; rfl) _
  -- a motion that is shown further leads to the same place
  case frame => exact fun start tween k m hstate => c.landed_resume_frame hstate
  case finish => exact fun hstate _ => landed_eq_landed rfl (hwalking hstate) _
  case enter =>
    -- before the block the chain was in no motion; after it, in the one that the block begins
    intro b ts hstate _
    rw [Option.toList_some, List.foldl_cons, List.foldl_nil,
      landed_of_land_eq_id (hwalking hstate)]
    exact c.landed_enter hpart b ts
  -- finding the way in the script is the chain's own affair
  case dangling =>
    exact fun id ts hstate _ _ => landed_eq_landed (hwalking hstate) (hwalking hstate) _
  case found =>
    exact fun id b ts hstate _ _ => landed_eq_landed (hwalking hstate) (hwalking hstate) _
  case spent =>
    exact fun b ts hstate _ => landed_eq_landed (hwalking hstate) (hwalking hstate) _
  case round =>
    exact fun b left ts hstate _ => landed_eq_landed (hwalking hstate) (hwalking hstate) _

/-- **A chain ends by having nothing left to do.** Nothing in the language gives up or breaks down,
so while nothing is called off there is no other way to end than through an empty script. -/
theorem step_ended (c : Chain) {how : Ending}
    (h : (c.step score scene).1.state = .ended how) (hc : c.ending? = none) :
    how = .completed ∧ (c.step score scene).1.script = [] := by
  revert h
  refine c.step_cases hcalled
    (motive := fun r _ => r.1.state = .ended how → how = .completed ∧ r.1.script = [])
    ?ended ?pause ?frame ?finish ?enter ?dangling ?found ?spent ?round
  case ended =>
    intro how' hstate _
    unfold ending? at hc
    rw [hstate] at hc
    exact absurd hc (by simp)
  case finish =>
    intro _ hscript h
    obtain rfl := Chain.State.ended.inj h
    exact ⟨rfl, hscript⟩
  case frame =>
    -- after a frame the chain is on its way or waits for the next one
    intro start tween k m _ h
    rw [resume_frame_chain] at h
    dsimp only at h
    split at h <;> exact absurd h (by simp)
  case enter =>
    -- no routine of the language ends the chain that carries it out
    intro b ts _ _ h
    rw [enter_chain] at h
    exact absurd h (state_lapse_ne_ended _ _ _ (c.actOf_goesOn hpart b) how)
  -- the remaining steps leave the chain on its way
  all_goals
    intros
    simp_all

/-- A chain that has ended after its step has been completed, unless it had ended in another way
before. -/
theorem step_completed (c : Chain) (hbefore : ∀ how, c.ending? = some how → how = .completed)
    {how : Ending} (h : (c.step score scene).1.ending? = some how) : how = .completed := by
  cases hending : c.ending? with
  | some how' =>
    rw [step_of_ending hending] at h
    exact hbefore how h
  | none => exact (c.step_ended hpart hcalled (ending?_eq_some.mp h) hending).1

end Part

end Chain

end StagePlay
