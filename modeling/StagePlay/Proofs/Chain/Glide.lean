import StagePlay.Proofs.Chain.Way
import StagePlay.Proofs.Routine.Grid

/-!
# Where a glide ends

A chain that glides is seen under way, and others may change the stage between its frames. Still each
of its frames changes nothing but the place of its owner, and the last one puts the owner exactly
where the glide was to end.

* `Chain.among` — a chain on the scenes that it finds, one after the other;
* `Chain.Arrives` — a chain that brings its owner to a place, in some steps;
* `Chain.arrives_of_glide` — every glide does, whatever the time from frame to frame;
* `Chain.goto_arrives` — the place to which a block of the grid brings its owner.
-/

namespace StagePlay

open Number Routine

theorem Figure.keepsId_movedTo (p : Point) : KeepsId (·.movedTo p) := fun _ => rfl

/-- Where its owner is on the stage, a glide is a motion from there. -/
theorem Routine.glideTo_of_figure? (place : Figure → Point) {cue : Cue} {f : Figure}
    (hf : cue.figure? = some f) : glideTo place cue =
      ⟨[], .animate (.ofMillis moveTime) (.glide f.position (place f))⟩ := by
  unfold glideTo
  rw [hf]

/-! ### Steps among others -/

namespace Chain

section Among

variable (score : Score) (c : Chain) (found : Nat → Scene)

/-- **A chain on the scenes that it finds.** What others do between two of its steps is in the scene
that it finds next, so `found` may be any sequence at all: nothing is assumed of the others. -/
def among : Nat → Chain
  | 0 => c
  | n + 1 => ((among n).step score (found n)).1

/-- The stage as a step leaves it. -/
def leaves (n : Nat) : Stage := ((c.among score found n).step score (found n)).2.1.stage

/-- **A chain that brings its owner to a place** with step `n`, and then goes on with its script.
Before that it rests between any two steps, so no other block of the script begins meanwhile. -/
structure Arrives (n : Nat) (place : Point) (ts : List Task) : Prop where
  /-- No step does anything but move the owner. -/
  moves : ∀ m ≤ n, ∃ p, c.leaves score found m = (found m).stage.alter c.owner (·.movedTo p)
  /-- The last step puts the owner at the place, wherever it was. -/
  lands : c.leaves score found n = (found n).stage.alter c.owner (·.movedTo place)
  /-- Before, the chain is not done. -/
  rests : ∀ m < n, ∃ rest, (c.among score found (m + 1)).state = .resting rest
  walks : (c.among score found (n + 1)).state = .walking
  script : (c.among score found (n + 1)).script = ts

end Among

section Arrives

variable {score : Score} {c : Chain} {found : Nat → Scene} {n : Nat} {place : Point}
  {ts : List Task}

/-- The first step taken apart, which is how the induction over the frames that are left goes on:
with the chain after that step and the scenes that it finds from then on. -/
theorem among_succ (n : Nat) : c.among score found (n + 1) =
    (c.step score (found 0)).1.among score (fun m => found (m + 1)) n := by
  induction n with
  | zero => rfl
  | succ n ih =>
    change ((c.among score found (n + 1)).step score (found (n + 1))).1 = _
    rw [ih]
    rfl

theorem leaves_succ (n : Nat) : c.leaves score found (n + 1) =
    (c.step score (found 0)).1.leaves score (fun m => found (m + 1)) n := by
  unfold leaves
  rw [among_succ]

/-- Arriving with the first step. -/
theorem Arrives.now
    (hstage : (c.step score (found 0)).2.1.stage =
      (found 0).stage.alter c.owner (·.movedTo place))
    (hstate : (c.step score (found 0)).1.state = .walking)
    (hscript : (c.step score (found 0)).1.script = ts) : c.Arrives score found 0 place ts where
  moves m hm := by
    obtain rfl : m = 0 := Nat.le_zero.mp hm
    exact ⟨place, hstage⟩
  lands := hstage
  rests m hm := absurd hm (Nat.not_lt_zero m)
  walks := hstate
  script := hscript

/-- Arriving after a first step on the way, which shows the owner at `p`. -/
theorem Arrives.later {p : Point} {rest : Rest}
    (hstage : (c.step score (found 0)).2.1.stage = (found 0).stage.alter c.owner (·.movedTo p))
    (hstate : (c.step score (found 0)).1.state = .resting rest)
    (howner : (c.step score (found 0)).1.owner = c.owner)
    (h : (c.step score (found 0)).1.Arrives score (fun m => found (m + 1)) n place ts) :
    c.Arrives score found (n + 1) place ts where
  moves m hm := by
    cases m with
    | zero => exact ⟨p, hstage⟩
    | succ m =>
      rw [leaves_succ, ← howner]
      exact h.moves m (Nat.le_of_succ_le_succ hm)
  lands := by
    rw [leaves_succ, ← howner]
    exact h.lands
  rests m hm := by
    cases m with
    | zero => exact ⟨rest, hstate⟩
    | succ m =>
      rw [among_succ]
      exact h.rests m (Nat.lt_of_succ_lt_succ hm)
  walks := by
    rw [among_succ]
    exact h.walks
  script := by
    rw [among_succ]
    exact h.script

/-- **Where nobody else does anything**, the stage is in the end as it was found, but for the place
of the owner. Each place under way is written over by the next one. -/
theorem Arrives.leaves_eq (h : c.Arrives score found n place ts)
    (hfound : ∀ m < n, (found (m + 1)).stage = c.leaves score found m) :
    c.leaves score found n = (found 0).stage.alter c.owner (·.movedTo place) := by
  -- wherever the owner is under way, moving it to the place leads to the same stage
  have hmoved : ∀ m ≤ n, (found m).stage.alter c.owner (·.movedTo place) =
      (found 0).stage.alter c.owner (·.movedTo place) := by
    intro m hm
    induction m with
    | zero => rfl
    | succ m ih =>
      obtain ⟨p, hp⟩ := h.moves m (Nat.le_of_succ_le hm)
      rw [hfound m hm, hp, Stage.alter_alter (Figure.keepsId_movedTo p),
        ← ih (Nat.le_of_succ_le hm)]
      rfl
  rw [h.lands]
  exact hmoved n le_rfl

end Arrives

/-! ### Glides -/

section Glide

variable {score : Score} {c : Chain} {found : Nat → Scene} {ts : List Task}

/-- With its last frame, a glide arrives: progress is 1 then, and the change of a glide at 1 is its
landing. -/
theorem arrives_of_isLast (hcalled : (found 0).cancelled = false) {start : Nat} {tween : Tween}
    {k : Nat} {origin goal : Point}
    (hstate : c.state = .resting (.frame start tween k (.glide origin goal)))
    (hlast : tween.isLast k = true) : c.Arrives score found 0 goal c.script := by
  have hstep : c.step score (found 0) = _ := step_of_resting hcalled hstate
  refine .now ?_ ?_ ?_
  · rw [hstep, (c.resume_frame_does start tween k _).scene_eq,
      Motion.change_eq_landing _ (of_decide_eq_true hlast)]
    rfl
  · rw [hstep, resume_frame_chain]
    exact if_pos hlast
  · rw [hstep, resume_frame_chain]

/-- **A chain in a glide** arrives with the last frame, unless it is called off before. That some
frame is the last one is a matter of the course of time alone (`hlast`); the number of frames that
are left is the measure of the induction. -/
theorem arrives_of_frames {start : Nat} {tween : Tween} {k j : Nat} {origin goal : Point}
    (hstate : c.state = .resting (.frame start tween k (.glide origin goal)))
    (hlast : tween.isLast (k + j) = true) :
    ∃ n, (∀ m ≤ n, (found m).cancelled = false) → c.Arrives score found n goal c.script := by
  -- on the number of frames that may be left
  induction j generalizing c found k with
  | zero => exact ⟨0, fun hcalled => arrives_of_isLast (hcalled 0 le_rfl) hstate hlast⟩
  | succ j ih =>
    by_cases hnow : tween.isLast k = true
    · exact ⟨0, fun hcalled => arrives_of_isLast (hcalled 0 le_rfl) hstate hnow⟩
    -- the chain that waits for the next frame, with one frame less to go
    · let next : Chain := { c with
        clock := start + tween.offset k
        state := .resting (.frame start tween (k + 1) (.glide origin goal)) }
      have hleft : tween.isLast (k + 1 + j) = true := by rwa [Nat.add_right_comm, Nat.add_assoc]
      obtain ⟨n, hn⟩ : ∃ n, (∀ m ≤ n, (found (m + 1)).cancelled = false) →
          next.Arrives score (fun m => found (m + 1)) n goal c.script := ih rfl hleft
      refine ⟨n + 1, fun hcalled => ?_⟩
      have hstep : c.step score (found 0) = _ := step_of_resting (hcalled 0 (Nat.zero_le _)) hstate
      have hchain : (c.step score (found 0)).1 = next := by
        rw [hstep, resume_frame_chain, if_neg hnow]
      have harrives := hn fun m hm => hcalled (m + 1) (Nat.succ_le_succ hm)
      rw [← hchain] at harrives
      -- where this frame shows the owner
      let shown : Point :=
        ⟨lerp origin.x goal.x (tween.progress k), lerp origin.y goal.y (tween.progress k)⟩
      refine .later (p := shown) ?_ (congrArg Chain.state hchain)
        (owner_step (hcalled 0 (Nat.zero_le _)) c) harrives
      rw [hstep, (c.resume_frame_does start tween k _).scene_eq]
      rfl

/-- **Every glide arrives** at the place to which it goes from where the owner is found, unless it is
called off: whatever others do meanwhile, and whatever the time from frame to frame is. -/
theorem arrives_of_glide {b : Block} {f : Figure} {place : Figure → Point}
    (hact : ∀ cue, score.repertoire.act cue b = glideTo place cue)
    (hfigure : (found 0).stage.figureOf? c.owner = some f) (hstate : c.state = .walking)
    (hscript : c.script = .enter b :: ts) :
    ∃ n, (∀ m ≤ n, (found m).cancelled = false) →
      c.Arrives score found n (place f) (.rounds b b.rounds :: (b.following ++ ts)) := by
  have hact' : c.actOf score (found 0) b =
      ⟨[], .animate (.ofMillis moveTime) (.glide f.position (place f))⟩ := by
    unfold actOf
    rw [hact]
    exact glideTo_of_figure? place hfigure
  -- the chain after the block was carried out: in the middle of the glide, before its first frame
  let next : Chain := { c with
    script := .rounds b b.rounds :: (b.following ++ ts)
    state := .resting (.frame c.clock (.ofDurations (.ofMillis moveTime) score.interval) 0
      (.glide f.position (place f))) }
  obtain ⟨j, hlast⟩ := Tween.ends_move score.interval
  obtain ⟨n, hn⟩ : ∃ n, (∀ m ≤ n, (found (m + 1)).cancelled = false) →
      next.Arrives score (fun m => found (m + 1)) n (place f)
        (.rounds b b.rounds :: (b.following ++ ts)) :=
    arrives_of_frames (j := j) rfl (by rwa [Nat.zero_add])
  refine ⟨n + 1, fun hcalled => ?_⟩
  have hstep : c.step score (found 0) = c.enter score (found 0) b ts := by
    unfold step
    rw [hstate, hscript]
    simp only [hcalled 0 (Nat.zero_le _), Bool.false_eq_true, if_false]
  have hchain : (c.step score (found 0)).1 = next := by
    rw [hstep, enter_chain, hact']
    rfl
  have harrives := hn fun m hm => hcalled (m + 1) (Nat.succ_le_succ hm)
  rw [← hchain] at harrives
  refine .later (p := f.position) ?_ (congrArg Chain.state hchain)
    (owner_step (hcalled 0 (Nat.zero_le _)) c) harrives
  -- the block itself changes nothing: the owner stays where it is
  rw [hstep, (c.enter_does b ts).scene_eq, hact']
  change (found 0).stage.alter c.owner _ = _
  refine Stage.alter_congr fun f' hf' => ?_
  obtain rfl := Option.some.inj (hf'.symm.trans hfigure)
  rfl

end Glide

/-! ### Cells of the grid -/

section Goto

variable {score : Score} {c : Chain} {found : Nat → Scene} {b : Block} {ts : List Task} {f : Figure}
  (hroutine : score.repertoire.find? b.operation.tag = some gotoXY)
  (hfigure : (found 0).stage.figureOf? c.owner = some f) (hstate : c.state = .walking)
  (hscript : c.script = .enter b :: ts)

include hroutine hfigure hstate hscript

/-- A block that leads to a cell of the grid is a glide to its destination, which does not depend on
where its owner is. -/
theorem arrives_at_destination : ∃ n, (∀ m ≤ n, (found m).cancelled = false) →
    c.Arrives score found n b.destination (.rounds b b.rounds :: (b.following ++ ts)) := by
  have hact : ∀ cue, score.repertoire.act cue b = glideTo (fun _ => b.destination) cue := by
    intro cue
    unfold Repertoire.act
    rw [hroutine]
    rfl
  exact arrives_of_glide hact hfigure hstate hscript

/-- **A block that leads to a cell of the grid** brings its owner exactly there, unless it is called
off: from whatever figure the owner is, with whatever time from frame to frame, and whatever others do
meanwhile. If nobody else does anything, this is all that has changed. -/
theorem goto_arrives :
    ∃ n place, place.IsCell (reachedCell (b.coordinate "x")) (reachedCell (b.coordinate "y")) ∧
      ((∀ m ≤ n, (found m).cancelled = false) →
        c.Arrives score found n place (.rounds b b.rounds :: (b.following ++ ts)) ∧
        ((∀ m < n, (found (m + 1)).stage = c.leaves score found m) →
          c.leaves score found n = (found 0).stage.alter c.owner (·.movedTo place))) := by
  obtain ⟨n, harrives⟩ := arrives_at_destination hroutine hfigure hstate hscript
  exact ⟨n, b.destination, b.isCell_destination, fun hcalled =>
    ⟨harrives hcalled, (harrives hcalled).leaves_eq⟩⟩

end Goto

/-- A block that leads to a cell of the grid. -/
def sampleGoto (x y : Argument) : Block where
  id := "goto"
  operation := .gotoXY
  arguments := (Arguments.empty.insert "x" x).insert "y" y
  children := []
  next := none
  blocks := []

/-- A stage with one actor. -/
def sampleScene : Scene := ⟨.set [⟨"Cat", "Cat", "cat.png"⟩] none, 0, false⟩

/-- The routines of the language, with nothing declared. -/
def sampleScore : Score := ⟨.ofBlocks [], .builtin, .ofMillis 16⟩

/-- A tie goes up, and what is beyond the grid goes to its border. -/
theorem sampleGoto_arrives :
    ∃ n place, place.IsCell 3 (-15) ∧
      (ofStart (some "Cat") 0 (sampleGoto (.text " 2.5") (.number (-99.5)))).Arrives sampleScore
        (fun _ => sampleScene) n place
        [.rounds (sampleGoto (.text " 2.5") (.number (-99.5))) 0] := by
  have hgoto := @goto_arrives sampleScore
    (ofStart (some "Cat") 0 (sampleGoto (.text " 2.5") (.number (-99.5)))) (fun _ => sampleScene)
    (sampleGoto (.text " 2.5") (.number (-99.5))) [] (.ofActor ⟨"Cat", "Cat", "cat.png"⟩)
    rfl rfl rfl rfl
  obtain ⟨n, place, hcell, harrives⟩ := hgoto
  -- the cells as the routine computes them, which can be evaluated
  rw [← gridCell_eq (Block.isFinite_coordinate _ _), ← gridCell_eq (Block.isFinite_coordinate _ _)]
    at hcell
  exact ⟨n, place, hcell, (harrives fun _ _ => rfl).1⟩

/-- **The float just below a half** leads to the next cell. -/
theorem belowHalf_misplaced :
    ∃ n place, (ofStart (some "Cat") 0 (sampleGoto (.number belowHalf) (.number 0.0))).Arrives
        sampleScore (fun _ => sampleScene) n place
        [.rounds (sampleGoto (.number belowHalf) (.number 0.0)) 0] ∧
      (sampleGoto (.number belowHalf) (.number 0.0)).coordinate "x" = belowHalf ∧
      value place.x = 10 ∧ 10 * nearestCell belowHalf = 0 := by
  have hgoto := @arrives_at_destination sampleScore
    (ofStart (some "Cat") 0 (sampleGoto (.number belowHalf) (.number 0.0))) (fun _ => sampleScene)
    (sampleGoto (.number belowHalf) (.number 0.0)) [] (.ofActor ⟨"Cat", "Cat", "cat.png"⟩)
    rfl rfl rfl rfl
  obtain ⟨n, harrives⟩ := hgoto
  have hcoordinate : (sampleGoto (.number belowHalf) (.number 0.0)).coordinate "x" = belowHalf := rfl
  have hvalue := (Block.isCell_destination (sampleGoto (.number belowHalf) (.number 0.0))).value_x
  rw [hcoordinate] at hvalue
  refine ⟨n, _, harrives fun _ _ => rfl, hcoordinate, ?_, ?_⟩
  · rw [hvalue, reachedCell, if_pos rfl]
    norm_num
  · rw [nearestCell_belowHalf, mul_zero]

end Chain

end StagePlay
