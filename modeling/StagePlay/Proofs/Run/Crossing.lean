import StagePlay.Proofs.Chain.Alone
import StagePlay.Proofs.Engine.Bounds

/-!
# Two scripts of one actor

One script of an actor moves it to the left and to the right, and another one up and down. A move
takes its start from where the actor stands when it begins, on both axes, and shows places between
there and its goal on both axes. So a move of one script carries away what the other one does
meanwhile. But as long as no two of their moves are under way at once, each script finds the actor
where the other one has left it, and the moves add up.

* `Axis` is the axis that a script moves along; its lane is the chain that does.
* `travelled` is how far a chain has moved along an axis, its moves added up in order.
* `Run.Crossing` says where the actor is: if no move is under way, then as far on either axis as the
  chain of that axis has moved it, and else on the way there from somewhere on the axis of the move.
* `Run.Crossing.step` is the one step that keeps it.
-/

namespace StagePlay

open Number Routine

/-! ### Axes and moves -/

/-- **The axis that a script moves along.** Facts about one axis and the other are stated once, for
an axis and its `other`, where two coordinates would have them twice. -/
inductive Axis where
  | across
  | upward
  deriving DecidableEq, Repr

/-- The other axis. -/
def Axis.other : Axis → Axis
  | across => upward
  | upward => across

/-- How far a place is from the centre on an axis. -/
def Point.along (p : Point) : Axis → Float
  | .across => p.x
  | .upward => p.y

theorem Axis.other_other (a : Axis) : a.other.other = a := by cases a <;> rfl

theorem Axis.eq_or_eq_other (a b : Axis) : b = a ∨ b = a.other := by
  cases a <;> cases b <;> simp [Axis.other]

/-- A place is known by where it is on an axis and on the other one. -/
theorem Point.eq_of_along {p q : Point} (a : Axis) (h : p.along a = q.along a)
    (h' : p.along a.other = q.along a.other) : p = q := by
  obtain ⟨x, y⟩ := p
  obtain ⟨x', y'⟩ := q
  cases a <;> simp_all [Point.along, Axis.other]

theorem Point.along_add (p v : Point) (a : Axis) :
    (Point.mk (p.x + v.x) (p.y + v.y)).along a = p.along a + v.along a := by
  cases a <;> rfl

theorem Point.along_lerp (p q : Point) (t : Float) (a : Axis) :
    (Point.mk (lerp p.x q.x t) (lerp p.y q.y t)).along a = lerp (p.along a) (q.along a) t := by
  cases a <;> rfl

theorem Point.InBounds.along {p : Point} (h : p.InBounds) (a : Axis) : Within 59 (p.along a) := by
  cases a
  · exact h.x
  · exact h.y

/-- **How far an operation moves its owner**, if it does so by a distance of its own. Moves by a
number of steps or to a place are no such operations: what they do depends on the figure or on their
arguments. -/
def Operation.shift? : Operation → Option Point
  | moveUp => some ⟨0.0, nudgeDistance⟩
  | moveDown => some ⟨0.0, -nudgeDistance⟩
  | moveLeft => some ⟨-nudgeDistance, 0.0⟩
  | moveRight => some ⟨nudgeDistance, 0.0⟩
  | _ => none

/-- The operations of a script that moves along an axis: the moves there and back, and those that
show nothing. Changes of the figure's look are left out, as they show frames of their own. -/
def Axis.operations : Axis → List Operation
  | across => [.moveLeft, .moveRight, .start, .wait, .repeatCount, .repeatForever]
  | upward => [.moveUp, .moveDown, .start, .wait, .repeatCount, .repeatForever]

/-- How far a deed moved its owner, if it did so by a distance of its own. -/
def Deed.shift? (d : Deed) : Option Point := d.block.named.shift?

/-- **How far a chain has moved its owner along an axis**: the moves that it has carried out, added
up in order. The order matters, since sums of floating point numbers depend on it. -/
def travelled (deeds : List Deed) (i : Nat) (a : Axis) : Float :=
  ((deeds.filter fun d => d.chain = i).filterMap Deed.shift?).foldl (fun x v => x + v.along a) 0.0

section Travelled

variable {deeds : List Deed} {i : Nat} {a : Axis} {d : Deed}

/-- What another chain carries out does not add to it. -/
theorem travelled_of_ne (hd : d.chain ≠ i) : travelled (deeds ++ [d]) i a = travelled deeds i a := by
  unfold travelled
  rw [List.filter_append, List.filter_cons_of_neg (by simpa using hd), List.filter_nil,
    List.append_nil]

/-- Neither does a block that is no move. -/
theorem travelled_of_none (hd : d.shift? = none) :
    travelled (deeds ++ [d]) i a = travelled deeds i a := by
  unfold travelled
  rw [List.filter_append, List.filterMap_append]
  by_cases hi : d.chain = i
  · rw [List.filter_cons_of_pos (by simpa using hi), List.filterMap_cons_none hd, List.filter_nil,
      List.filterMap_nil, List.append_nil]
  · rw [List.filter_cons_of_neg (by simpa using hi), List.filter_nil, List.filterMap_nil,
      List.append_nil]

/-- And a move adds its distance at the end. -/
theorem travelled_of_some (hi : d.chain = i) {v : Point} (hd : d.shift? = some v) :
    travelled (deeds ++ [d]) i a = travelled deeds i a + v.along a := by
  unfold travelled
  rw [List.filter_append, List.filterMap_append, List.filter_cons_of_pos (by simpa using hi),
    List.filterMap_cons_some hd, List.filter_nil, List.filterMap_nil, List.foldl_append]
  rfl

end Travelled

/-! ### What the operations do -/

namespace Repertoire

/-- **A move** takes its owner from where it stands to a fixed distance from there. The start and
the goal are both captured when the block is entered, and this is what loses what others do
meanwhile. -/
theorem act_of_shift (cue : Cue) {b : Block} {v : Point} (hb : b.named.shift? = some v)
    {f : Figure} (hf : cue.figure? = some f) :
    builtin.act cue b = ⟨[], .animate (.ofMillis moveTime)
      (.glide f.position ⟨f.position.x + v.x, f.position.y + v.y⟩)⟩ := by
  -- the four moves are one routine, with a distance for each direction
  have hnudge : b.named.routine? = some (nudge v.x v.y) := by
    cases hnamed : b.named <;> rw [hnamed] at hb <;>
      simp only [Operation.shift?, Option.some.injEq, reduceCtorEq] at hb <;> subst hb <;> rfl
  rw [act_builtin cue b hnudge]
  simp only [nudge, glideTo, hf]

/-- **An operation that shows nothing** does nothing at once, and begins no motion. It may take
time, as a rest does, but leaves the figure alone all the while. -/
theorem act_of_silent (cue : Cue) {b : Block} {a : Axis} (hb : b.named ∈ a.operations)
    (hnone : b.named.shift? = none) :
    (builtin.act cue b).effects = [] ∧ ∀ d m, (builtin.act cue b).lapse ≠ .animate d m := by
  -- of a lane's operations, the ones without a distance are these
  have hsilent : b.named = .start ∨ b.named = .wait ∨ b.named = .repeatCount ∨
      b.named = .repeatForever := by
    cases a <;> simp only [Axis.operations, List.mem_cons, List.not_mem_nil, or_false] at hb <;>
      rcases hb with hb | hb | hb <;> first
        | exact hb
        | exact absurd hnone (by rw [hb]; exact Option.some_ne_none _)
  rcases hsilent with hb | hb | hb | hb
  · rw [act_builtin cue b (r := structural) (by rw [hb]; rfl)]
    exact ⟨rfl, by rintro d m ⟨⟩⟩
  · rw [act_builtin cue b (r := wait) (by rw [hb]; rfl)]
    exact ⟨rfl, by rintro d m ⟨⟩⟩
  · rw [act_builtin cue b (r := structural) (by rw [hb]; rfl)]
    exact ⟨rfl, by rintro d m ⟨⟩⟩
  · rw [act_builtin cue b (r := structural) (by rw [hb]; rfl)]
    exact ⟨rfl, by rintro d m ⟨⟩⟩

end Repertoire

/-- A move along an axis leaves the other one as it is, and its distance on its own axis is a small
number. The latter keeps the sums below from overflowing. -/
theorem Operation.along_other_of_shift? {o : Operation} {a : Axis} (ho : o ∈ a.operations) {v : Point}
    (hv : o.shift? = some v) :
    v.along a.other = 0.0 ∧ isFinite (v.along a) = true ∧ |value (v.along a)| < 64 := by
  obtain ⟨hforth, hback⟩ := small_nudgeDistance
  cases a <;> simp only [Axis.operations, List.mem_cons, List.not_mem_nil, or_false] at ho <;>
    rcases ho with rfl | rfl | rfl | rfl | rfl | rfl <;>
    simp only [Operation.shift?, Option.some.injEq, reduceCtorEq] at hv <;> subst hv
  · exact ⟨rfl, hback⟩
  · exact ⟨rfl, hforth⟩
  · exact ⟨rfl, hforth⟩
  · exact ⟨rfl, hback⟩

/-! ### Strides -/

/-- Whether a chain is in the middle of a motion, that is, rests between two of its frames. A chain
that pauses is in none. -/
def Chain.isMoving (c : Chain) : Bool :=
  match c.state with
  | .resting (.frame ..) => true
  | _ => false

namespace Chain

theorem isMoving_of_walking {c : Chain} (h : c.state = .walking) : c.isMoving = false := by
  unfold isMoving
  rw [h]

/-- A chain that has ended is in no motion. -/
theorem isMoving_of_ending {c : Chain} {how : Ending} (h : c.ending? = some how) :
    c.isMoving = false := by
  unfold isMoving
  rw [ending?_eq_some.mp h]

/-- **The steps of a chain in a lane**, with the block that it carries out and what becomes of the
figure of its owner: it shows nothing, it sets out on a move from where the figure stands, or it
shows a frame of the move that it is in. The many cases of `Chain.step_cases` come down to these
three. -/
inductive Stride (a : Axis) (f : Figure) (c : Chain) : Option Block → Chain → Figure → Prop where
  /-- Nothing is shown, and no motion goes on before it or after it. -/
  | still {b? : Option Block} {c' : Chain} (hshift : ∀ b ∈ b?, b.named.shift? = none)
      (hbefore : c.isMoving = false) (hafter : c'.isMoving = false) : Stride a f c b? c' f
  /-- A move begins, from where the figure stands now. -/
  | setOut {b : Block} {c' : Chain} {v : Point} {start : Nat} {tween : Tween}
      (hmember : b.named ∈ a.operations) (hshift : b.named.shift? = some v)
      (hbefore : c.isMoving = false)
      (hafter : c'.state = .resting (.frame start tween 0
        (.glide f.position ⟨f.position.x + v.x, f.position.y + v.y⟩))) : Stride a f c (some b) c' f
  /-- A frame of the move is shown, and if it was the last one, the chain walks on. -/
  | frame {start : Nat} {tween : Tween} {k : Nat} {m : Motion} {c' : Chain}
      (hbefore : c.state = .resting (.frame start tween k m))
      (hfinite : isFinite (tween.progress k) = true)
      (hafter : c'.state =
        if tween.isLast k then .walking else .resting (.frame start tween (k + 1) m)) :
      Stride a f c none c' (f.apply (m.change (tween.progress k)))

variable {score : Score} {scene : Scene} {c : Chain} {a : Axis} {f : Figure} {calm : Prop}

/-- A block of a lane that is carried out is a stride: it sets out on a move or shows nothing, and
in neither case it touches the figure yet. -/
theorem stride_enter (hbuiltin : score.repertoire = .builtin)
    (hf : scene.stage.figureOf? c.owner = some f) (hstate : c.state = .walking) {b : Block}
    (hb : b.named ∈ a.operations) (ts : List Task) :
    Stride a f c (some b) (c.enter score scene b ts).1 f ∧
      (c.enter score scene b ts).2.1.stage.figureOf? c.owner = some f := by
  obtain ⟨cue, hcue⟩ : ∃ cue, { scene with operations := scene.operations + 1 }.cue c.owner = cue :=
    ⟨_, rfl⟩
  have hact : c.actOf score scene b = Repertoire.builtin.act cue b := by
    unfold actOf
    rw [hbuiltin, hcue]
  have hfigure : cue.figure? = some f := by
    rw [← hcue]
    exact hf
  -- whatever the block is, nothing is done at once
  have hstage : (c.actOf score scene b).effects = [] →
      (c.enter score scene b ts).2.1.stage.figureOf? c.owner = some f := by
    intro hnothing
    have htouch : (c.actOf score scene b).touch = id := by
      unfold Act.touch
      rw [hnothing]
      rfl
    rw [(c.enter_does b ts).scene_eq, htouch, Stage.alter_id]
    exact hf
  cases hshift : b.named.shift? with
  | none =>
    -- no distance of its own: it shows nothing, and whatever time it takes is no motion
    obtain ⟨hnothing, hlapse⟩ := Repertoire.act_of_silent cue hb hshift
    rw [← hact] at hnothing hlapse
    refine ⟨.still (fun b' hb' => ?_) (isMoving_of_walking hstate) ?_, hstage hnothing⟩
    · obtain rfl := Option.some.inj hb'
      exact hshift
    · rw [enter_chain]
      cases h : (c.actOf score scene b).lapse with
      | animate d m => exact absurd h (hlapse d m)
      | goOn | giveUp | breakDown | pause => rfl
  | some v =>
    -- a move, which starts at the figure and goes there from the next step on
    rw [Repertoire.act_of_shift cue hshift hfigure] at hact
    have hmoving : (c.enter score scene b ts).1.state =
        .resting (.frame c.clock (.ofDurations (.ofMillis moveTime) score.interval) 0
          (.glide f.position ⟨f.position.x + v.x, f.position.y + v.y⟩)) := by
      rw [enter_chain, hact]
      rfl
    exact ⟨.setOut hb hshift (isMoving_of_walking hstate) hmoving, hstage (by rw [hact])⟩

/-- **Every step of a chain in a lane is a stride**, together with the figure that is found on the
stage after it. -/
theorem stride (hbuiltin : score.repertoire = .builtin) (hcalled : scene.cancelled = false)
    (hf : scene.stage.figureOf? c.owner = some f) (hc : c.InBounds calm score.interval)
    (hb : ∀ b ∈ c.entering? false, b.named ∈ a.operations) :
    ∃ f', Stride a f c (c.entering? false) (c.step score scene).1 f' ∧
      (c.step score scene).2.1.stage.figureOf? c.owner = some f' := by
  -- only a frame and the beginning of a block touch the figure, all else is a still
  revert hb
  have hwalking : ∀ {c' : Chain}, c'.state = .walking → c'.isMoving = false := isMoving_of_walking
  refine c.step_cases hcalled (motive := fun done b? => (∀ b ∈ b?, b.named ∈ a.operations) →
      ∃ f', Stride a f c b? done.1 f' ∧ done.2.1.stage.figureOf? c.owner = some f')
    ?ended ?pause ?frame ?finish ?enter ?dangling ?found ?spent ?round
  case ended =>
    intro how hstate _
    have hstill : c.isMoving = false := isMoving_of_ending (ending?_eq_some.mpr hstate)
    exact ⟨f, .still nofun hstill hstill, hf⟩
  case pause =>
    intro wake hstate _
    have hstill : c.isMoving = false := by
      unfold isMoving
      rw [hstate]
    exact ⟨f, .still nofun hstill rfl, hf⟩
  case frame =>
    intro start tween k m hstate _
    -- the chain is within its bounds, so the frame's progress is a number
    obtain ⟨-, d, hpos, hshort, rfl, hdue⟩ := hc start tween k m hstate
    obtain ⟨hfinite, -⟩ := progress_bounds hpos (hshort.trans (by decide)) (due_le hshort hdue)
    refine ⟨_, .frame hstate hfinite rfl, ?_⟩
    rw [(c.resume_frame_does start _ k m).scene_eq]
    exact (Stage.figureOf?_alter_self (keepsId_apply _) _).trans (by rw [hf]; rfl)
  case finish => exact fun hstate _ _ => ⟨f, .still nofun (hwalking hstate) rfl, hf⟩
  case enter =>
    exact fun b ts hstate _ hb => ⟨f, stride_enter hbuiltin hf hstate (hb b rfl) ts⟩
  case dangling =>
    exact fun _ _ hstate _ _ _ => ⟨f, .still nofun (hwalking hstate) (hwalking hstate), hf⟩
  case found =>
    exact fun _ _ _ hstate _ _ _ => ⟨f, .still nofun (hwalking hstate) (hwalking hstate), hf⟩
  case spent =>
    exact fun _ _ hstate _ _ => ⟨f, .still nofun (hwalking hstate) (hwalking hstate), hf⟩
  case round =>
    exact fun _ _ _ hstate _ _ => ⟨f, .still nofun (hwalking hstate) (hwalking hstate), hf⟩

end Chain

/-! ### Runs -/

namespace Run

/-- What a chain of a run is doing, if there is such a chain. Clock and script do not matter to
where its owner is. -/
def state? (r : Run) (i : Nat) : Option Chain.State := r.chains[i]?.map Chain.state

/-- Whether a chain of a run is in the middle of a motion. -/
def isMoving (r : Run) (i : Nat) : Bool := r.chains[i]?.any Chain.isMoving

/-- Whether a chain is moving can be read off what it is doing. -/
theorem isMoving_eq (r : Run) (i : Nat) : r.isMoving i = (r.state? i).any fun state =>
    (⟨none, 0, [], state⟩ : Chain).isMoving := by
  unfold isMoving state?
  cases r.chains[i]? <;> rfl

/-- A chain that is moving rests between two frames of a motion. -/
theorem exists_frame_of_isMoving {r : Run} {i : Nat} (h : r.isMoving i = true) :
    ∃ start tween k m, r.state? i = some (.resting (.frame start tween k m)) := by
  rw [isMoving_eq] at h
  cases hstate : r.state? i with
  | none =>
    rw [hstate] at h
    exact nomatch h
  | some state =>
    rw [hstate] at h
    match state, h with
    | .resting (.frame start tween k m), _ => exact ⟨start, tween, k, m, rfl⟩

/-- What a chain is doing after a step of a run: something new if it was its step, and the same as
before otherwise, though its clock may be another one. -/
theorem state?_step (r : Run) (off : Bool) (s : Stage) (i j : Nat) :
    (r.step off s i).1.state? j = r.chains[j]?.map fun c => if i = j ∧ r.mayAct i = true then
      (c.step r.score ⟨s, r.operations, off⟩).1.state else c.state := by
  have hstep := congrArg (Option.map Chain.state) (r.getElem?_step off s i j)
  rw [Option.map_map, Option.map_map] at hstep
  refine hstep.trans ?_
  congr 1
  funext c
  dsimp only [Function.comp_apply]
  split <;> rfl

theorem state?_step_of_ne (r : Run) (off : Bool) (s : Stage) {i j : Nat} (hij : i ≠ j) :
    (r.step off s i).1.state? j = r.state? j := by
  rw [state?_step]
  simp only [hij, false_and, if_false]
  rfl

/-- **A run with two lanes** of one actor, and no other chain of that actor. All its chains have
their turns at once, and know the routines of the language. -/
structure Lanes (lane : Axis → Nat) (id : String) (r : Run) (s : Stage) : Prop where
  scheduling_eq : r.scheduling = .concurrent
  repertoire_eq : r.score.repertoire = .builtin
  /-- The chains of both lanes belong to the actor. -/
  owner : ∀ a, ∃ c, r.chains[lane a]? = some c ∧ c.owner = some id
  /-- Nobody else's does. -/
  others : ∀ {k : Nat} {c : Chain}, r.chains[k]? = some c → c.owner = some id → ∃ a, k = lane a
  /-- The actor is on the stage. -/
  figure : ∃ f, s.figureOf? (some id) = some f

section Lanes

variable {lane : Axis → Nat} {id : String} {r : Run} {s : Stage}

/-- A step of a run leaves everyone but the owner of its chain as they are. This is the isolation
that two lanes of one actor do not have. -/
theorem figureOf?_step_of_ne (hpart : r.score.repertoire.IsPartOf .builtin) {k : Nat} {c : Chain}
    (hc : r.chains[k]? = some c) {owner : Option String} (hne : owner ≠ c.owner) (s : Stage) :
    (r.step false s k).2.1.figureOf? owner = s.figureOf? owner := by
  by_cases hmay : r.mayAct k = true
  · obtain ⟨g, hg, hstage⟩ := @Chain.step_alters r.score ⟨s, r.operations, false⟩ hpart rfl c
    rw [(step_of_mayAct hc hmay false s).1, hstage, Stage.figureOf?_alter_of_ne hg hne]
  · rw [(step_of_not_mayAct (fun _ => Bool.eq_false_iff.mpr hmay) false s).1]

/-- A step of any chain leaves the two lanes where they are. Chains do not change owners, and
figures do not leave the stage. -/
theorem Lanes.step (h : Lanes lane id r s) (k : Nat) :
    Lanes lane id (r.step false s k).1 (r.step false s k).2.1 where
  scheduling_eq := (r.scheduling_step false s k).trans h.scheduling_eq
  repertoire_eq := by rw [r.score_step false s k, h.repertoire_eq]
  owner a := by
    obtain ⟨c, hc, howner⟩ := h.owner a
    have hsame := r.owner?_step false s k (lane a)
    rw [hc] at hsame
    obtain ⟨c', hc', hafter⟩ := Option.map_eq_some_iff.mp hsame
    exact ⟨c', hc', hafter.trans howner⟩
  others := by
    intro j c' hc' howner'
    have hsame := r.owner?_step false s k j
    rw [hc'] at hsame
    obtain ⟨c, hc, hbefore⟩ := Option.map_eq_some_iff.mp hsame.symm
    exact h.others hc (hbefore.trans howner')
  figure := by
    by_cases hacts : r.chains[k]?.isSome → r.mayAct k = false
    · rw [(step_of_not_mayAct hacts false s).1]
      exact h.figure
    obtain ⟨hsome, hmay⟩ := Classical.not_imp.mp hacts
    obtain ⟨c, hc⟩ := Option.isSome_iff_exists.mp hsome
    have hpart : r.score.repertoire.IsPartOf .builtin := by
      rw [h.repertoire_eq]
      exact .refl _
    -- a step may alter a figure, but it takes none away
    obtain ⟨g, hg, hstage⟩ := @Chain.step_alters r.score ⟨s, r.operations, false⟩ hpart rfl c
    rw [(step_of_mayAct hc (by simpa using hmay) false s).1, hstage, ← Option.isSome_iff_exists,
      Stage.figureOf?_alter_isSome hg, Option.isSome_iff_exists]
    exact h.figure

end Lanes

/-- Where two lanes have led together: each on its own axis as far as its chain has moved, from the
centre. -/
def destination (lane : Axis → Nat) (deeds : List Deed) : Point :=
  ⟨travelled deeds (lane .across) .across, travelled deeds (lane .upward) .upward⟩

theorem along_destination (lane : Axis → Nat) (deeds : List Deed) (a : Axis) :
    (destination lane deeds).along a = travelled deeds (lane a) a := by
  cases a <;> rfl

/-- **A move leads their destination on** by its distance, on its own axis. On the other one nothing
is added, and adding zero changes nothing, unless the sum were a negative zero, which is carried
along as excluded. -/
theorem destination_append {lane : Axis → Nat} {deeds : List Deed} {a : Axis} {d : Deed} {v : Point}
    (hlane : lane a ≠ lane a.other) (hd : d.chain = lane a) (hmember : d.block.named ∈ a.operations)
    (hshift : d.shift? = some v) (hne : ∀ b, travelled deeds (lane b) b ≠ -0.0)
    (hwithin : ∀ b, Within 59 (travelled deeds (lane b) b)) :
    (∀ b, travelled (deeds ++ [d]) (lane b) b ≠ -0.0) ∧
      destination lane (deeds ++ [d]) =
        ⟨(destination lane deeds).x + v.x, (destination lane deeds).y + v.y⟩ := by
  obtain ⟨hzero, hfinite, hsmall⟩ := Operation.along_other_of_shift? hmember hshift
  have hself : travelled (deeds ++ [d]) (lane a) a = travelled deeds (lane a) a + v.along a :=
    travelled_of_some hd hshift
  have hother : travelled (deeds ++ [d]) (lane a.other) a.other =
      travelled deeds (lane a.other) a.other := travelled_of_ne (by rw [hd]; exact hlane)
  -- both are small, so the sum is far from overflowing
  have hsum : |value (travelled deeds (lane a) a) + value (v.along a)| ≤ 2 ^ (1023 : ℤ) := by
    refine abs_le_of_word ((abs_add_le _ _).trans ?_)
    have hbound := (hwithin a).bound
    norm_num at hbound ⊢
    linarith
  refine ⟨fun b => ?_, Point.eq_of_along a ?_ ?_⟩
  · rcases a.eq_or_eq_other b with rfl | rfl
    · rw [hself]
      exact add_ne_negativeZero (hwithin _).finite hfinite (hne _) hsum
    · rw [hother]
      exact hne _
  · rw [along_destination, hself, Point.along_add, along_destination]
  · -- on the other axis nothing is added
    rw [along_destination, hother, Point.along_add, along_destination, hzero]
    exact (add_zero_eq (hwithin _).finite (hne _) unpack_zero).symm

/-- **Where the actor of two lanes is**: at their destination if no move is under way, and else on the
way there. Then on the axis of the other lane it is there already. -/
structure Crossing (lane : Axis → Nat) (id : String) (r : Run) (s : Stage) (deeds : List Deed) :
    Prop where
  ne_negativeZero : ∀ a, travelled deeds (lane a) a ≠ -0.0
  standing : ∀ f, s.figureOf? (some id) = some f → (∀ a, r.isMoving (lane a) = false) →
    f.position = destination lane deeds
  moving : ∀ f a start tween k m, s.figureOf? (some id) = some f →
    r.state? (lane a) = some (.resting (.frame start tween k m)) →
    ∃ q, m = .glide q (destination lane deeds) ∧
      q.along a.other = travelled deeds (lane a.other) a.other ∧
      f.position.along a.other = travelled deeds (lane a.other) a.other

section Step

variable {score : Score} {lane : Axis → Nat} {id : String} {r : Run} {s : Stage}
  {signals : List Signal} {deeds : List Deed}

/-- The actor stands at the destination. -/
theorem Crossing.of_standing (hne : ∀ a, travelled deeds (lane a) a ≠ -0.0) {f : Figure}
    (hf : s.figureOf? (some id) = some f) (hstill : ∀ a, r.isMoving (lane a) = false)
    (hplace : f.position = destination lane deeds) : Crossing lane id r s deeds := by
  refine ⟨hne, fun f' hf' _ => ?_, fun f' a start tween k m _ hstate => ?_⟩
  · obtain rfl := Option.some.inj (hf.symm.trans hf')
    exact hplace
  · have hmoves := hstill a
    rw [isMoving_eq, hstate] at hmoves
    exact nomatch hmoves

/-- The actor is on the way to the destination, along one axis. -/
theorem Crossing.of_moving (hne : ∀ a, travelled deeds (lane a) a ≠ -0.0) {f : Figure}
    (hf : s.figureOf? (some id) = some f) {a : Axis} {start : Nat} {tween : Tween} {k : Nat} {q : Point}
    (hstate : r.state? (lane a) =
      some (.resting (.frame start tween k (.glide q (destination lane deeds)))))
    (hrest : r.isMoving (lane a.other) = false)
    (hq : q.along a.other = travelled deeds (lane a.other) a.other)
    (hplace : f.position.along a.other = travelled deeds (lane a.other) a.other) :
    Crossing lane id r s deeds := by
  refine ⟨hne, fun f' _ hstill => ?_, fun f' b start' tween' k' m hf' hstate' => ?_⟩
  · have hmoves := hstill a
    rw [isMoving_eq, hstate] at hmoves
    exact nomatch hmoves
  · rcases a.eq_or_eq_other b with rfl | rfl
    · obtain rfl := Option.some.inj (hf.symm.trans hf')
      obtain ⟨-, -, -, rfl⟩ := Rest.frame.inj
        (Chain.State.resting.inj (Option.some.inj (hstate.symm.trans hstate')))
      exact ⟨q, rfl, hq, hplace⟩
    · rw [isMoving_eq, hstate'] at hrest
      exact nomatch hrest

/-- **On an axis along which no move is under way**, the actor is where its chain has moved it. If
the other lane is in a move, that move leaves this axis alone. -/
theorem Crossing.along_eq (h : Crossing lane id r s deeds) {f : Figure}
    (hf : s.figureOf? (some id) = some f) {a : Axis} (ha : r.isMoving (lane a) = false) :
    f.position.along a = travelled deeds (lane a) a := by
  cases hother : r.isMoving (lane a.other) with
  | false =>
    rw [h.standing f hf fun b => ?_, along_destination]
    rcases a.eq_or_eq_other b with rfl | rfl
    · exact ha
    · exact hother
  | true =>
    -- the move of the other lane leaves this axis alone
    obtain ⟨start, tween, k, m, hstate⟩ := exists_frame_of_isMoving hother
    obtain ⟨q, -, -, hplace⟩ := h.moving f a.other start tween k m hf hstate
    rwa [a.other_other] at hplace

/-- A chain that has not moved on leaves the actor where it was, and its destination as well. The
two lanes may have changed what they do, as long as neither began or ended a motion. -/
theorem Crossing.of_same {r' : Run} {s' : Stage} {deeds' : List Deed}
    (h : Crossing lane id r s deeds)
    (hfigure : s'.figureOf? (some id) = s.figureOf? (some id))
    (htravelled : ∀ a, travelled deeds' (lane a) a = travelled deeds (lane a) a)
    (hstate : ∀ a, r'.state? (lane a) = r.state? (lane a) ∨
      r'.isMoving (lane a) = false ∧ r.isMoving (lane a) = false) : Crossing lane id r' s' deeds' := by
  have hmoving : ∀ a, r'.isMoving (lane a) = r.isMoving (lane a) := by
    intro a
    rcases hstate a with hsame | ⟨hstill', hstill⟩
    · rw [isMoving_eq, isMoving_eq, hsame]
    · rw [hstill', hstill]
  have hdestination : destination lane deeds' = destination lane deeds := by
    unfold destination
    rw [htravelled, htravelled]
  refine ⟨fun a => ?_, fun f hf hstill => ?_, fun f a start tween k m hf hrest => ?_⟩
  · rw [htravelled]
    exact h.ne_negativeZero a
  · rw [hdestination]
    exact h.standing f (hfigure ▸ hf) fun a => hmoving a ▸ hstill a
  · rw [hdestination, htravelled]
    -- a lane that is in a motion now was in the same one before
    rcases hstate a with hsame | ⟨hstill, -⟩
    · exact h.moving f a start tween k m (hfigure ▸ hf) (hsame ▸ hrest)
    · rw [isMoving_eq, hrest] at hstill
      exact nomatch hstill

/-- What is carried out in a step of another chain does not add to the way of this one. -/
theorem travelled_append_of_ne {d? : Option Deed} {i : Nat} {a : Axis}
    (hd : ∀ d ∈ d?, d.chain ≠ i) : travelled (deeds ++ d?.toList) i a = travelled deeds i a := by
  cases d? with
  | none => rw [Option.toList_none, List.append_nil]
  | some d => exact travelled_of_ne (hd d rfl)

/-! A step in a lane is a stride of its chain, and each kind of stride keeps the crossing for a reason
of its own. -/

/-- **What a step in a lane leaves behind it**: the chain of the lane and the figure of the actor,
which it may change, and the other lane, which it does not. The three kinds of stride are taken from
here. -/
structure LaneStep (lane : Axis → Nat) (id : String) (a : Axis) (r r' : Run) (s s' : Stage)
    (deeds deeds' : List Deed) (c c' : Chain) (f f' : Figure) : Prop where
  /-- What the lane's chain was doing, and is doing now. -/
  before : r.state? (lane a) = some c.state
  after : r'.state? (lane a) = some c'.state
  /-- The actor, before the step and after it. -/
  figure_before : s.figureOf? (some id) = some f
  figure_after : s'.figureOf? (some id) = some f'
  /-- The other lane does what it did, and has led as far as it had. -/
  other : r'.state? (lane a.other) = r.state? (lane a.other)
  travelled_other : travelled deeds' (lane a.other) a.other = travelled deeds (lane a.other) a.other

namespace LaneStep

variable {a : Axis} {r' : Run} {s' : Stage} {deeds' : List Deed} {c c' : Chain} {f f' : Figure}

theorem isMoving_before (hstep : LaneStep lane id a r r' s s' deeds deeds' c c' f f') :
    r.isMoving (lane a) = c.isMoving := by
  rw [isMoving_eq, hstep.before]
  rfl

theorem isMoving_after (hstep : LaneStep lane id a r r' s s' deeds deeds' c c' f f') :
    r'.isMoving (lane a) = c'.isMoving := by
  rw [isMoving_eq, hstep.after]
  rfl

theorem isMoving_other (hstep : LaneStep lane id a r r' s s' deeds deeds' c c' f f') :
    r'.isMoving (lane a.other) = r.isMoving (lane a.other) := by
  rw [isMoving_eq, isMoving_eq, hstep.other]

/-- **A step outside of any move** leaves the actor where it is, and its destination as well. The
other lane may be in the middle of a move; it is where it was. -/
theorem crossing_of_still (hstep : LaneStep lane id a r r' s s' deeds deeds' c c' f f)
    (h : Crossing lane id r s deeds) (hbefore : c.isMoving = false) (hafter : c'.isMoving = false)
    (htravelled : travelled deeds' (lane a) a = travelled deeds (lane a) a) :
    Crossing lane id r' s' deeds' := by
  refine h.of_same (hstep.figure_after.trans hstep.figure_before.symm) (fun b => ?_) (fun b => ?_)
  · rcases a.eq_or_eq_other b with rfl | rfl
    · exact htravelled
    · exact hstep.travelled_other
  · rcases a.eq_or_eq_other b with rfl | rfl
    · exact .inr ⟨hstep.isMoving_after.trans hafter, hstep.isMoving_before.trans hbefore⟩
    · exact .inl hstep.other

/-- **Setting out on a move**, from where both lanes have led together: the goal of the move is
where they lead from now on. That the other lane rests is needed here. Were it on its way, the actor
would stand somewhere on that way, and the move would take its start from there. -/
theorem crossing_of_setOut {d : Deed}
    (hstep : LaneStep lane id a r r' s s' deeds (deeds ++ [d]) c c' f f)
    (h : Crossing lane id r s deeds) (hlane : lane a ≠ lane a.other)
    (hwithin : ∀ b, Within 59 (f.position.along b)) (hbefore : c.isMoving = false)
    (hrest : r.isMoving (lane a.other) = false) (hchain : d.chain = lane a)
    (hmember : d.block.named ∈ a.operations) {v : Point} (hshift : d.shift? = some v) {start : Nat}
    {tween : Tween} (hafter : c'.state = .resting (.frame start tween 0
      (.glide f.position ⟨f.position.x + v.x, f.position.y + v.y⟩))) :
    Crossing lane id r' s' (deeds ++ [d]) := by
  -- neither lane is on its way, so the actor stands where both have led
  have hposition : f.position = destination lane deeds := by
    refine h.standing f hstep.figure_before fun b => ?_
    rcases a.eq_or_eq_other b with rfl | rfl
    · exact hstep.isMoving_before.trans hbefore
    · exact hrest
  have hwithin' : ∀ b, Within 59 (travelled deeds (lane b) b) := by
    intro b
    rw [← along_destination, ← hposition]
    exact hwithin b
  obtain ⟨hne, hgoal⟩ :=
    destination_append hlane hchain hmember hshift h.ne_negativeZero hwithin'
  rw [hposition, ← hgoal] at hafter
  have hplace : (destination lane deeds).along a.other =
      travelled (deeds ++ [d]) (lane a.other) a.other :=
    (along_destination ..).trans hstep.travelled_other.symm
  exact .of_moving hne hstep.figure_after (hafter ▸ hstep.after)
    (hstep.isMoving_other.trans hrest) hplace (hposition ▸ hplace)

/-- **A frame of a move**: the last one shows the goal, and the ones before it lie on the way there,
which leads nowhere on the axis of the other lane. So the other axis is written in each frame, but
with the value that it has. -/
theorem crossing_of_frame {start : Nat} {tween : Tween} {k : Nat} {m : Motion}
    (hstep : LaneStep lane id a r r' s s' deeds deeds c c' f
      (f.apply (m.change (tween.progress k))))
    (h : Crossing lane id r s deeds) (hrest : r.isMoving (lane a.other) = false)
    (hbefore : c.state = .resting (.frame start tween k m)) (hbounds : m.InBounds (Calm deeds))
    (hfinite : isFinite (tween.progress k) = true)
    (hafter : c'.state =
      if tween.isLast k then .walking else .resting (.frame start tween (k + 1) m)) :
    Crossing lane id r' s' deeds := by
  obtain ⟨q, rfl, hq, -⟩ :=
    h.moving f a start tween k m hstep.figure_before (hbefore ▸ hstep.before)
  have hrest' : r'.isMoving (lane a.other) = false := hstep.isMoving_other.trans hrest
  by_cases hlast : tween.isLast k = true
  -- the last frame: both lanes are still, and the figure stands at the goal
  · rw [if_pos hlast] at hafter
    refine .of_standing h.ne_negativeZero hstep.figure_after (fun b => ?_) ?_
    · rcases a.eq_or_eq_other b with rfl | rfl
      · exact hstep.isMoving_after.trans (Chain.isMoving_of_walking hafter)
      · exact hrest'
    · rw [Motion.change_eq_landing _ (of_decide_eq_true hlast)]
      rfl
  -- an earlier one: the move goes on, to the same goal
  · rw [if_neg hlast] at hafter
    -- a way from a place to itself, where no part of it is added
    have hgoal := hbounds.2.along a.other
    rw [along_destination] at hgoal
    have hlerp : lerp (q.along a.other) ((destination lane deeds).along a.other)
        (tween.progress k) = travelled deeds (lane a.other) a.other := by
      rw [hq, along_destination]
      exact lerp_self hgoal.finite (h.ne_negativeZero _) hfinite
    exact .of_moving h.ne_negativeZero hstep.figure_after (hafter ▸ hstep.after) hrest' hq
      ((Point.along_lerp q _ _ _).trans hlerp)

end LaneStep

variable (hlane : ∀ a, lane a ≠ lane a.other) (hlanes : Lanes lane id r s)
  (hbounds : InBounds score r s signals deeds) (h : Crossing lane id r s deeds)

include hlane hlanes hbounds h

/-- **A step in a lane**, where not both are in the middle of a move before it nor after it. The
step is a stride, and each of the three kinds keeps the crossing by its own lemma. -/
theorem Crossing.step_lane (a : Axis)
    (hkinds : ∀ d ∈ r.deed? false (lane a), d.block.named ∈ a.operations)
    (hbefore : ∃ b, r.isMoving (lane b) = false)
    (hafter : ∃ b, (r.step false s (lane a)).1.isMoving (lane b) = false) :
    Crossing lane id (r.step false s (lane a)).1 (r.step false s (lane a)).2.1
      (deeds ++ (r.deed? false (lane a)).toList) := by
  obtain ⟨c, hc, howner⟩ := hlanes.owner a
  obtain ⟨f, hf⟩ := hlanes.figure
  have hmay := mayAct_of_concurrent hlanes.scheduling_eq (lane a)
  obtain ⟨hstage, hdeed⟩ := step_of_mayAct hc hmay false s
  have hinBounds : c.InBounds (Calm deeds) r.score.interval := by
    rw [hbounds.score_eq]
    exact hbounds.chains c (List.mem_of_getElem? hc)
  have hblock : ∀ b ∈ c.entering? false, b.named ∈ a.operations := fun b hb =>
    hkinds ⟨lane a, c.owner, b⟩ (by rw [hdeed, hb]; rfl)
  have hstride : ∃ f', Chain.Stride a f c (c.entering? false)
      (c.step r.score ⟨s, r.operations, false⟩).1 f' ∧
      (c.step r.score ⟨s, r.operations, false⟩).2.1.stage.figureOf? c.owner = some f' :=
    Chain.stride hlanes.repertoire_eq rfl (by rw [howner]; exact hf) hinBounds hblock
  obtain ⟨f', hstride, hf'⟩ := hstride
  rw [howner, ← hstage] at hf'
  have hstep : LaneStep lane id a r (r.step false s (lane a)).1 s (r.step false s (lane a)).2.1 deeds
      (deeds ++ (r.deed? false (lane a)).toList) c (c.step r.score ⟨s, r.operations, false⟩).1 f f' :=
    { before := by rw [state?, hc, Option.map_some]
      after := by
        rw [state?_step, hc]
        simp only [hmay, and_self, if_true, Option.map_some]
      figure_before := hf
      figure_after := hf'
      other := state?_step_of_ne r false s (hlane a)
      travelled_other := travelled_append_of_ne fun d hd => by
        rw [chain_of_deed? d hd]
        exact hlane a }
  -- two moves are not under way at once, so in a move of this lane the other one rests
  have hrest_before : c.isMoving = true → r.isMoving (lane a.other) = false := by
    intro hmoves
    obtain ⟨b, hb⟩ := hbefore
    rcases a.eq_or_eq_other b with rfl | rfl
    · exact absurd (hstep.isMoving_before.symm.trans hb) (by simp [hmoves])
    · exact hb
  have hrest_after : (c.step r.score ⟨s, r.operations, false⟩).1.isMoving = true →
      r.isMoving (lane a.other) = false := by
    intro hmoves
    obtain ⟨b, hb⟩ := hafter
    rcases a.eq_or_eq_other b with rfl | rfl
    · exact absurd (hstep.isMoving_after.symm.trans hb) (by simp [hmoves])
    · exact hstep.isMoving_other.symm.trans hb
  rw [hdeed] at hstep ⊢
  generalize (r.step false s (lane a)).1 = r' at hstep ⊢
  generalize (r.step false s (lane a)).2.1 = s' at hstep ⊢
  generalize (c.step r.score ⟨s, r.operations, false⟩).1 = c' at hstride hstep hrest_after
  generalize c.entering? false = b? at hstride hstep ⊢
  cases hstride with
  | still hshift hstill hstill' =>
    refine hstep.crossing_of_still h hstill hstill' ?_
    cases b? with
    | none => exact travelled_append_of_ne nofun
    | some b => exact travelled_of_none (hshift b rfl)
  | setOut hmember hshift hstill hstate =>
    exact hstep.crossing_of_setOut h (hlane a)
      (hbounds.stage f (List.mem_of_find?_eq_some hf)).position.along hstill
      (hrest_after (by rw [Chain.isMoving, hstate])) rfl hmember hshift hstate
  | frame hstate hfinite hstate' =>
    rw [Option.map_none, Option.toList_none, List.append_nil] at hstep ⊢
    exact hstep.crossing_of_frame h (hrest_before (by rw [Chain.isMoving, hstate])) hstate
      (hinBounds _ _ _ _ hstate).1 hfinite hstate'

omit hlane hbounds in
/-- A step of another chain leaves the actor alone, since no other chain is its own, and leaves both
lanes as they are. -/
theorem Crossing.step_of_ne {k : Nat} (hk : ∀ a, k ≠ lane a) :
    Crossing lane id (r.step false s k).1 (r.step false s k).2.1
      (deeds ++ (r.deed? false k).toList) := by
  refine h.of_same ?_ (fun a => travelled_append_of_ne fun d hd => ?_) fun a =>
    .inl (state?_step_of_ne r false s (hk a))
  · cases hc : r.chains[k]? with
    | none =>
      rw [(step_of_not_mayAct (fun hsome => by rw [hc] at hsome; exact nomatch hsome) false s).1]
    | some c =>
      refine figureOf?_step_of_ne (by rw [hlanes.repertoire_eq]; exact .refl _) hc (fun howner => ?_) s
      obtain ⟨a, ha⟩ := hlanes.others hc howner.symm
      exact hk a ha
  · rw [chain_of_deed? d hd]
    exact hk a

/-- **A step of a run** keeps the actor of two lanes where they have led together, if not both are
in the middle of a move before it nor after it. This is the step of the induction over a whole run.
-/
theorem Crossing.step (k : Nat)
    (hkinds : ∀ d ∈ r.deed? false k, ∀ a, d.chain = lane a → d.block.named ∈ a.operations)
    (hbefore : ∃ a, r.isMoving (lane a) = false)
    (hafter : ∃ a, (r.step false s k).1.isMoving (lane a) = false) :
    Crossing lane id (r.step false s k).1 (r.step false s k).2.1
      (deeds ++ (r.deed? false k).toList) := by
  by_cases hk : ∀ a, k ≠ lane a
  · exact h.step_of_ne hlanes hk
  · obtain ⟨a, ha⟩ := not_forall.mp hk
    obtain rfl := not_not.mp ha
    exact h.step_lane hlane hlanes hbounds a
      (fun d hd => hkinds d hd a (chain_of_deed? d hd)) hbefore hafter

end Step

end Run

end StagePlay
