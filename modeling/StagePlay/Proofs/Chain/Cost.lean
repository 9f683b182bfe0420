import StagePlay.Proofs.Chain.Step
import StagePlay.Proofs.Routine.Cost
import StagePlay.Run.Basic

/-!
# What a chain costs

The clock of a chain stands at the time at which it last went on, so what it carries out can be told
from its clock, whatever else goes on meanwhile.

* `Chain.time` is the time up to which a chain has come; no step of it takes it back.
* `Chain.Due` is the time at which a chain will be done with the block that it has carried out last.
  A step that carries out a block puts it off by the cost of that block, and no other step changes it
  (`Chain.Due.step`).
* `Chain.OnTime` follows: from its beginning on, a chain takes as long as the blocks cost for which its
  script stands.
-/

namespace StagePlay

open Routine

/-- What some blocks cost in milliseconds, one after the other, with a frame every `p` milliseconds;
`known` says whether there is an actor to be shown moving. -/
def costOf (p : Nat) (known : Bool) (l : List Block) : Nat := (l.map (Block.cost p known)).sum

@[simp] theorem costOf_nil (p : Nat) (known : Bool) : costOf p known [] = 0 := rfl

theorem costOf_append (p : Nat) (known : Bool) (l l' : List Block) :
    costOf p known (l ++ l') = costOf p known l + costOf p known l' := by
  unfold costOf
  rw [List.map_append, List.sum_append]

/-- **What a start block costs** on a stage: what the blocks cost that it stands for, for the actor
that it is for. -/
def Program.Costs (prog : Program) (p : Nat) (set : Stage) (b : Block) (n : Nat) : Prop :=
  ∃ l, prog.Unfolds (.chain b) l ∧ n = costOf p (set.figureOf? (Run.ownerOf set b)).isSome l

/-- A start block has one cost at most, since it stands for one list of blocks at most. -/
theorem Program.Costs.unique {prog : Program} {p : Nat} {set : Stage} {b : Block} {n n' : Nat}
    (h : prog.Costs p set b n) (h' : prog.Costs p set b n') : n = n' := by
  obtain ⟨l, hl, rfl⟩ := h
  obtain ⟨l', hl', rfl⟩ := h'
  rw [hl.unique hl']

namespace Chain

/-! ### The time of a chain -/

/-- **The time up to which a chain has come**: that at which it goes on, if it rests, and else its
clock. The clock alone would not do, as it stands still during a rest. -/
def time (c : Chain) : Nat := c.wake?.getD c.clock

theorem time_of_not_resting {c : Chain} (h : ∀ rest, c.state ≠ .resting rest) :
    c.time = c.clock := by
  unfold time wake?
  split
  · next hrest => exact absurd hrest (h _)
  · rfl

theorem time_of_resting {c : Chain} {rest : Rest} (h : c.state = .resting rest) :
    c.time = rest.wake := by
  unfold time wake?
  rw [h]
  rfl

theorem time_of_ending {c : Chain} {how : Ending} (h : c.ending? = some how) : c.time = c.clock :=
  time_of_not_resting fun _ hrest => nomatch (ending?_eq_some.mp h).symm.trans hrest

/-- After what a block did at once, a chain does not rest in the past. -/
theorem time_lapse (c : Chain) (interval : Duration) (ts : List Task) (l : Lapse) :
    (c.lapse interval ts l).clock = c.clock ∧ c.clock ≤ (c.lapse interval ts l).time := by
  cases l with
  | goOn | giveUp | breakDown => exact ⟨rfl, Nat.le_refl _⟩
  | pause d =>
    -- a wait ends at the clock or later, and the first frame of a motion is due at once
    have hstate : (c.lapse interval ts (.pause d)).state =
        .resting (.pause (c.clock + waitTicks d)) := rfl
    rw [time_of_resting hstate]
    exact ⟨rfl, Nat.le_add_right _ _⟩
  | animate d m =>
    have hstate : (c.lapse interval ts (.animate d m)).state =
        .resting (.frame c.clock (.ofDurations d interval) 0 m) := rfl
    rw [time_of_resting hstate]
    exact ⟨rfl, Nat.le_add_right _ _⟩

section Time

variable {score : Score} {scene : Scene}

/-- **A step of a chain** leaves its clock at the time up to which it had come, and takes it no
further back. So the clocks of a chain never go down along a run, and the last of them is the time
at which it ended. -/
theorem time_step (hcalled : scene.cancelled = false) (c : Chain) :
    (c.step score scene).1.clock = c.time ∧ c.time ≤ (c.step score scene).1.time := by
  have hwalking (h : c.state = .walking) : c.time = c.clock :=
    time_of_not_resting fun rest hrest => nomatch h.symm.trans hrest
  -- a step that begins no rest
  have hstill {c' : Chain} (h : c.time = c'.clock) (hrest : ∀ rest, c'.state ≠ .resting rest) :
      c'.clock = c.time ∧ c.time ≤ c'.time :=
    ⟨h.symm, by rw [time_of_not_resting hrest, h]⟩
  refine c.step_cases hcalled (motive := fun done _ => done.1.clock = c.time ∧ c.time ≤ done.1.time)
    ?ended ?pause ?frame ?finish ?enter ?dangling ?found ?spent ?round
  case ended =>
    intro how hstate
    have hrest : ∀ rest, c.state ≠ .resting rest := fun rest hrest => nomatch hstate.symm.trans hrest
    exact hstill (time_of_not_resting hrest) hrest
  -- a rest is over: the clock moves on to the end of it
  case pause => exact fun wake hstate => hstill (time_of_resting hstate) nofun
  case frame =>
    intro start tween k m hstate
    rw [resume_frame_chain]
    refine ⟨(time_of_resting hstate).symm, ?_⟩
    rw [time_of_resting hstate]
    by_cases hlast : tween.isLast k = true
    · rw [time_of_not_resting (fun rest => by rw [if_pos hlast]; exact nofun)]
      exact Nat.le_refl _
    · -- the next frame is not due before this one
      rw [time_of_resting (if_neg hlast)]
      exact Nat.add_le_add_left (tween.offset_mono (Nat.le_succ k)) start
  case finish => exact fun hstate _ => hstill (hwalking hstate) nofun
  case enter =>
    intro b ts hstate _
    rw [enter_chain, hwalking hstate]
    exact c.time_lapse _ _ _
  case dangling =>
    -- the last four walk on at the same time
    exact fun _ _ hstate _ _ => hstill (hwalking hstate) fun _ h => nomatch hstate.symm.trans h
  case found =>
    exact fun _ _ _ hstate _ _ => hstill (hwalking hstate) fun _ h => nomatch hstate.symm.trans h
  case spent =>
    exact fun _ _ hstate _ => hstill (hwalking hstate) fun _ h => nomatch hstate.symm.trans h
  case round =>
    exact fun _ _ _ hstate _ => hstill (hwalking hstate) fun _ h => nomatch hstate.symm.trans h

end Time

/-! ### The time at which a block is done -/

/-- **The time at which a chain will be done** with what it has carried out last, with a frame every
`p` milliseconds. A motion of `d` milliseconds takes the whole span of its frames, so its end is
known from its beginning on (`start + Tween.span p d`), whichever frame is next; `hk` says that the
next frame is not beyond it. -/
inductive Due (p : Nat) (c : Chain) : Nat → Prop where
  /-- A chain that does not rest is done. -/
  | now (hstate : ∀ rest, c.state ≠ .resting rest) : Due p c c.clock
  /-- A chain that waits is done when the wait is over. -/
  | pause {wake : Nat} (hstate : c.state = .resting (.pause wake)) : Due p c wake
  /-- A chain in motion is done with the last frame. -/
  | frame {start d k : Nat} {m : Motion} (hd : 0 < d) (hd' : d ≤ moveTime)
      (hk : k * p ≤ Tween.span p d)
      (hstate : c.state =
        .resting (.frame start (.ofDurations (.ofMillis d) (.ofMillis p)) k m)) :
      Due p c (start + Tween.span p d)

section Due

variable {score : Score} {scene : Scene} {p : Nat} (hp : 1 ≤ p) (hp' : p ≤ longestWait)
  (hbuiltin : score.repertoire = .builtin) (hinterval : score.interval = .ofMillis p)

/-- A chain that walks on is done with everything before. -/
theorem due_of_walking {c : Chain} (h : c.state = .walking) : c.Due p c.clock :=
  .now fun _ hrest => nomatch h.symm.trans hrest

theorem Due.eq_clock {c : Chain} {due : Nat} (h : c.Due p due)
    (hstate : ∀ rest, c.state ≠ .resting rest) : due = c.clock := by
  cases h with
  | now => rfl
  | pause hrest => exact absurd hrest (hstate _)
  | frame _ _ _ hrest => exact absurd hrest (hstate _)

include hp hp'

/-- A frame of a motion puts nothing off: the end of the span is the same, and after the last frame
the clock stands there. -/
theorem Due.resume {c : Chain} {due start k : Nat} {tween : Tween} {m : Motion} (h : c.Due p due)
    (hstate : c.state = .resting (.frame start tween k m)) :
    (c.resume scene (.frame start tween k m)).1.Due p due := by
  rw [resume_frame_chain]
  cases h with
  | now hnot => exact absurd hstate (hnot _)
  | pause hrest => exact nomatch hstate.symm.trans hrest
  | @frame _ d _ _ hd hd' hk hrest =>
    obtain ⟨rfl, rfl, rfl, rfl⟩ := Rest.frame.inj (State.resting.inj (hstate.symm.trans hrest))
    by_cases hlast : (Tween.ofDurations (.ofMillis d) (.ofMillis p)).isLast k = true
    · -- the last frame is due at the end of the span
      have hspan := (Tween.isLast_iff_span hp hp' hd hd' hk).mp hlast
      rw [if_pos hlast, Tween.offset_ofMillis hp hp', hspan]
      exact .now nofun
    -- any other frame leaves the motion with one frame less
    · have hbefore : k * p < Tween.span p d :=
        lt_of_le_of_ne hk fun hspan => hlast ((Tween.isLast_iff_span hp hp' hd hd' hk).mpr hspan)
      rw [if_neg hlast]
      exact .frame hd hd' (Tween.succ_le_span hp hbefore) rfl

omit hp hp' in
include hbuiltin hinterval in
/-- A block that is carried out is done when the time has passed that it costs. What it costs
depends on whether its owner is on the stage, for without an actor there is nothing to move. -/
theorem due_enter (c : Chain) (b : Block) (ts : List Task) :
    (c.enter score scene b ts).1.Due p
      (c.clock + b.cost p (scene.stage.figureOf? c.owner).isSome) := by
  obtain ⟨cue, hcue⟩ : ∃ cue, { scene with operations := scene.operations + 1 }.cue c.owner = cue :=
    ⟨_, rfl⟩
  have hfigure : cue.figure? = scene.stage.figureOf? c.owner := by
    rw [← hcue]
    rfl
  obtain ⟨hshort, hcost⟩ := Repertoire.cost_act p cue b
  rw [enter_chain, actOf, hbuiltin, hinterval, hcue, ← hfigure, ← hcost]
  cases hlapse : (Repertoire.builtin.act cue b).lapse with
  -- the three lapses: at once, after a wait, after the frames of a motion
  | goOn | giveUp | breakDown => exact .now (by simp [lapse, finish])
  | pause d => exact .pause rfl
  | animate d m =>
    obtain ⟨n, hpos, hle, rfl⟩ := hshort d m hlapse
    have hdue : (c.lapse (.ofMillis p) (.rounds b b.rounds :: (b.following ++ ts))
        (.animate (.ofMillis n) m)).Due p (c.clock + Tween.span p n) :=
      .frame hpos hle (by rw [Nat.zero_mul]; exact Nat.zero_le _) rfl
    have hspan : Lapse.cost p (.animate (.ofMillis n) m) = Tween.span p n :=
      congrArg (Tween.span p) (Duration.ticks_ofMillis n)
    rwa [hspan]

include hbuiltin hinterval

/-- **A step puts off the time at which a chain is done** by the cost of the block that it carries out,
if it carries out one. -/
theorem Due.step (hcalled : scene.cancelled = false) {c : Chain} {due : Nat} (h : c.Due p due) :
    (c.step score scene).1.Due p
      (due + costOf p (scene.stage.figureOf? c.owner).isSome (c.entering? false).toList) := by
  have hwalking (hstate : c.state = .walking) : due = c.clock :=
    h.eq_clock fun _ hrest => nomatch hstate.symm.trans hrest
  -- a chain that finds its way in its script stays where it is
  have hfinds (hstate : c.state = .walking) (ts : List Task) : { c with script := ts }.Due p due := by
    rw [hwalking hstate]
    exact due_of_walking hstate
  refine c.step_cases hcalled (motive := fun done b? => done.1.Due p
      (due + costOf p (scene.stage.figureOf? c.owner).isSome b?.toList))
    ?ended ?pause ?frame ?finish ?enter ?dangling ?found ?spent ?round
  case ended => exact fun _ _ => h
  case pause =>
    -- a chain that waits was due at the end of its wait, and there its clock stands now
    intro wake hstate
    cases h with
    | now hnot => exact absurd hstate (hnot _)
    | pause hrest =>
      obtain rfl := Rest.pause.inj (State.resting.inj (hstate.symm.trans hrest))
      exact .now nofun
    | frame _ _ _ hrest => exact nomatch hstate.symm.trans hrest
  case frame => exact fun start tween k m hstate => h.resume hp hp' hstate
  case finish =>
    intro hstate _
    rw [hwalking hstate]
    exact .now nofun
  case enter =>
    -- the only step that puts anything off
    intro b ts hstate _
    rw [hwalking hstate]
    exact c.due_enter hbuiltin hinterval b ts
  case dangling => exact fun _ ts hstate _ _ => hfinds hstate ts
  case found => exact fun _ _ _ hstate _ _ => hfinds hstate _
  case spent => exact fun _ ts hstate _ => hfinds hstate ts
  case round => exact fun _ _ _ hstate _ => hfinds hstate _

end Due

/-! ### From beginning to end -/

/-- **A chain that is on time**: it began at some time with a start block, and what it has still to
do costs what is left of the cost of that block. The clause `left` is the invariant of the steps. It
is stated for every list of blocks that the script may stand for, so it can be used before it is
known that the script comes to an end. -/
structure OnTime (score : Score) (p : Nat) (set : Stage) (start : Nat) (b : Block) (c : Chain) :
    Prop where
  owner_eq : c.owner = Run.ownerOf set b
  begun : start ≤ c.time
  /-- A chain that has ended has nothing left in its script. -/
  ended : ∀ how, c.ending? = some how → how = .completed ∧ c.script = []
  /-- What is done and what is left make up the cost of the start block. -/
  left : ∃ due, c.Due p due ∧ ∀ l, score.program.Performs c.script l →
    ∃ l', score.program.Unfolds (.chain b) l' ∧
      start + costOf p (set.figureOf? c.owner).isSome l' =
        due + costOf p (set.figureOf? c.owner).isSome l

section OnTime

variable {score : Score} {p : Nat} {set : Stage} {start : Nat} {b : Block}

/-- A chain begins on time: nothing is done yet, and its script stands for what the start block
does. -/
theorem onTime_ofStart (score : Score) (p : Nat) (set : Stage) (clock : Nat) (b : Block) :
    (ofStart (Run.ownerOf set b) clock b).OnTime score p set clock b where
  owner_eq := rfl
  begun := Nat.le_refl _
  ended := nofun
  left := by
    refine ⟨clock, .now nofun, fun l hl => ?_⟩
    obtain ⟨l₁, l₂, hchain, hnothing, rfl⟩ := hl
    obtain rfl : l₂ = [] := hnothing
    rw [List.append_nil]
    exact ⟨l₁, hchain, rfl⟩

/-- **A chain takes as long as its start block costs.** At its end the script is empty, so nothing
is left, and the chain is due at its clock. -/
theorem OnTime.costs {c : Chain} (h : c.OnTime score p set start b) {how : Ending}
    (hended : c.ending? = some how) :
    ∃ n, score.program.Costs p set b n ∧ c.clock = start + n := by
  obtain ⟨-, hscript⟩ := h.ended how hended
  obtain ⟨due, hdue, hleft⟩ := h.left
  rw [hscript] at hleft
  obtain ⟨l, hl, hcost⟩ := hleft [] Program.performs_nil
  have hclock : due = c.clock := hdue.eq_clock fun rest hrest =>
    nomatch (ending?_eq_some.mp hended).symm.trans hrest
  rw [h.owner_eq, hclock] at hcost
  exact ⟨_, ⟨l, hl, rfl⟩, hcost.symm⟩

/-- **A step keeps a chain on time.** A step that carries out a block moves the cost of that block
from what is left to what is done, and no other step changes either. It is used that actors neither
come nor go while a run goes on (`hknown`). -/
theorem OnTime.step {scene : Scene} (hp : 1 ≤ p) (hp' : p ≤ longestWait)
    (hbuiltin : score.repertoire = .builtin) (hinterval : score.interval = .ofMillis p)
    (hcalled : scene.cancelled = false) {c : Chain} (h : c.OnTime score p set start b)
    (hknown : (scene.stage.figureOf? c.owner).isSome = (set.figureOf? c.owner).isSome) :
    (c.step score scene).1.OnTime score p set start b := by
  have hpart : score.repertoire.IsPartOf .builtin := by
    rw [hbuiltin]
    exact .refl _
  have howner : (c.step score scene).1.owner = c.owner := c.owner_step hcalled
  refine ⟨howner.trans h.owner_eq, h.begun.trans (time_step hcalled c).2, fun how hended => ?_, ?_⟩
  · cases hbefore : c.ending? with
    | none => exact c.step_ended hpart hcalled (ending?_eq_some.mp hended) hbefore
    | some how' =>
      rw [step_of_ending hbefore] at hended ⊢
      exact h.ended how hended
  · obtain ⟨due, hdue, hleft⟩ := h.left
    refine ⟨_, hdue.step hp hp' hbuiltin hinterval hcalled, fun l hl => ?_⟩
    -- what the script stood for before the step
    obtain ⟨l', hl', hcost⟩ := hleft _ (c.step_performs hpart hcalled hl)
    rw [howner]
    refine ⟨l', hl', ?_⟩
    rw [hcost, hknown, costOf_append, Nat.add_assoc]

end OnTime

end Chain

end StagePlay
