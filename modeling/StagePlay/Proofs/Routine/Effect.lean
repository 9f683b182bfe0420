import StagePlay.Proofs.Stage.Alter
import StagePlay.Routine.Builtin

/-!
# The effects of the language

What the operations of the language come to, once the time that they take has passed.
`Operation.effect` gives it for each of them, as a function on the figure of the owner.

A routine gets there in two stages: what its act does at once (`Act.touch`), and where the motion
that follows ends (`Lapse.land`). `Routine.Plain` says that the two together are a given effect,
and that the routine does nothing that would take it out of the language: it looks at no more than
the figure of its owner, sends no word to the outside, and always lets its chain go on. Every
routine of the language is plain (`Operation.plain_of_routine?`).

A repertoire that `IsPartOf` the language knows some of its kinds, each with the routine that it has
there. Of its acts, `Repertoire.act_touch_land` and the lemmas beside it say what `Routine.Plain`
says of a routine, and that a kind without a routine is announced and nothing else.
-/

namespace StagePlay

open Routine

/-! ### Figures -/

/-- A figure at another place. -/
def Figure.movedTo (f : Figure) (p : Point) : Figure := { f with position := p }

/-- A figure moved by a distance on each axis, as floats are added. -/
def Figure.movedBy (f : Figure) (dx dy : Float) : Figure :=
  f.movedTo ⟨f.position.x + dx, f.position.y + dy⟩

/-- A figure turned by `sign` times some degrees. -/
def Figure.turnedBy (f : Figure) (sign degrees : Float) : Figure :=
  { f with heading := f.heading + sign * degrees }

/-- **What an operation makes of the figure of its owner**, with the arguments of a block. Time has
no part in it: an effect is where a motion ends, and what is seen after a pause. The operations that
only order the blocks after them make nothing of it, and neither does one of one's own. -/
def Operation.effect (b : Block) : Operation → Figure → Figure
  | moveUp, f => f.movedBy 0.0 nudgeDistance
  | moveDown, f => f.movedBy 0.0 (-nudgeDistance)
  | moveLeft, f => f.movedBy (-nudgeDistance) 0.0
  | moveRight, f => f.movedBy nudgeDistance 0.0
  | moveSteps, f => f.movedTo (walk f ((b.number? "steps").getD defaultSteps * stepSize))
  | gotoXY, f => f.movedTo ⟨grid ((b.number? "x").getD 0.0), grid ((b.number? "y").getD 0.0)⟩
  | turnRight, f => f.turnedBy 1.0 ((b.number? "degrees").getD defaultDegrees)
  | turnLeft, f => f.turnedBy (-1.0) ((b.number? "degrees").getD defaultDegrees)
  | say, f => { f with speech := .say (message b) }
  | think, f => { f with speech := .think (message b) }
  | «show», f => { f with visible := true }
  | hide, f => { f with visible := false }
  | start, f | wait, f | repeatCount, f | repeatForever, f | custom _, f => f

/-- The operation that the kind of a block names. A kind may be written in a block as a custom one
and yet be the tag of an operation of the language, so it is the tag that decides. -/
def Block.named (b : Block) : Operation := .ofTag b.operation.tag

/-! ### Acts -/

/-- What an effect does to a figure. A word to the outside does nothing to it. -/
def Effect.touch : Effect → Figure → Figure
  | .change c, f => f.apply c
  | .announce _, f => f
  | .note, f => f

/-- What some effects do to a figure, one after the other. -/
def touchAll (es : List Effect) (f : Figure) : Figure := es.foldl (fun f e => e.touch f) f

/-- The kinds that some effects announce as unknown, in order. -/
def announced (es : List Effect) : List String :=
  es.filterMap fun
    | .announce kind => some kind
    | _ => none

/-- What an act does to a figure at once. -/
def Act.touch (a : Act) : Figure → Figure := touchAll a.effects

/-- The change that shows the end of a motion, whatever was seen of it on the way. -/
def Motion.landing : Motion → Change
  | .glide _ goal => .toPosition goal
  | .turn _ goal => .toHeading goal
  | .grow _ goal => .toScale goal

/-- What the time that passes makes of a figure. Only a motion makes something of it. -/
def Lapse.land : Lapse → Figure → Figure
  | .animate _ m, f => f.apply m.landing
  | _, f => f

theorem Effect.keepsId_touch (e : Effect) : KeepsId e.touch := by
  intro f
  cases e <;> rfl

theorem keepsId_touchAll (es : List Effect) : KeepsId (touchAll es) := by
  induction es with
  | nil => exact fun _ => rfl
  | cons e es ih => exact fun f => (ih (e.touch f)).trans (e.keepsId_touch f)

theorem Act.keepsId_touch (a : Act) : KeepsId a.touch := keepsId_touchAll a.effects

/-- From progress 1 on, a motion shows its end: numbers in between are no longer computed, so the
end is met exactly. -/
theorem Motion.change_eq_landing (m : Motion) {t : Float} (ht : 1.0 ≤ t) :
    m.change t = m.landing := by
  cases m <;> simp only [Motion.change, Motion.landing, lerp, if_pos ht]

/-- The end of a motion does not depend on how far it had come, since a motion names one field and
always the same. -/
theorem Motion.apply_change_apply_landing (m : Motion) (t : Float) (f : Figure) :
    (f.apply (m.change t)).apply m.landing = f.apply m.landing := by
  cases m <;> rfl

/-! ### Plain routines -/

/-- **A routine that stays within the language** and has a given effect. What a chain of such
routines does to the figure of its owner can be computed without a stage, and all the more without
the turns in which it is done. -/
structure Routine.Plain (r : Routine) (effect : Block → Figure → Figure) : Prop where
  /-- It looks at the figure of its owner alone. -/
  congr : ∀ {cue cue' : Cue} (b : Block), cue.figure? = cue'.figure? → r cue b = r cue' b
  /-- It announces nothing. -/
  announced_eq : ∀ cue b, announced (r cue b).effects = []
  /-- Its chain goes on. -/
  goesOn : ∀ cue b, (r cue b).lapse ≠ .giveUp ∧ (r cue b).lapse ≠ .breakDown
  /-- What it does at once and where its motion ends are together its effect. -/
  touch_land : ∀ cue b f, cue.figure? = some f →
    (r cue b).lapse.land ((r cue b).touch f) = effect b f

namespace Routine

/-- **A glide to a place** has the effect of standing there. Where the owner is not on the stage
there is no motion but a pause, and no figure that the effect could be seen on. -/
theorem plain_glideTo (place : Block → Figure → Point) :
    Plain (fun cue b => glideTo (place b) cue) fun b f => f.movedTo (place b f) where
  congr b h := by simp only [glideTo, h]
  announced_eq cue b := by
    unfold glideTo
    split <;> rfl
  goesOn cue b := by
    unfold glideTo
    split <;> simp [Act.pauseFor]
  touch_land cue b f h := by
    simp only [glideTo, h]
    rfl

/-- **A turn**, of either sense, has the effect of the degrees that it names. -/
theorem plain_turn (sign : Float) :
    Plain (turn sign) fun b f => f.turnedBy sign ((b.number? "degrees").getD defaultDegrees) where
  congr b h := by simp only [turn, h]
  announced_eq cue b := by
    unfold turn
    split <;> rfl
  goesOn cue b := by
    unfold turn
    split <;> simp [Act.pauseFor]
  touch_land cue b f h := by
    simp only [turn, h]
    rfl

/-- **A change that is then seen for a while** has the effect of the change. Speech is of this kind,
and so are showing and hiding. -/
theorem plain_showFor (c : Block → Change) (ms : Nat) :
    Plain (fun _ b => .showFor (c b) ms) fun b f => f.apply (c b) where
  congr _ _ := rfl
  announced_eq _ _ := rfl
  goesOn _ _ := ⟨by simp [Act.showFor], by simp [Act.showFor]⟩
  touch_land _ _ _ _ := rfl

/-- To wait has no effect but the time that it takes. -/
theorem plain_wait : Plain wait fun _ f => f where
  congr _ _ := rfl
  announced_eq _ _ := rfl
  goesOn _ _ := ⟨by simp [wait], by simp [wait]⟩
  touch_land _ _ _ _ := rfl

/-- What only orders other blocks has no effect. -/
theorem plain_structural : Plain structural fun _ f => f where
  congr _ _ := rfl
  announced_eq _ _ := rfl
  goesOn _ _ := ⟨by simp [structural, Act.nothing], by simp [structural, Act.nothing]⟩
  touch_land _ _ _ _ := rfl

end Routine

/-- **The routine that an operation of the language is meant to have**, told by the operation and
not by its tag. A custom operation has none. That the routines are in fact registered under these
tags is `Repertoire.find?_builtin`. -/
def Operation.routine? : Operation → Option Routine
  | start | repeatCount | repeatForever => some Routine.structural
  | wait => some Routine.wait
  | moveUp => some (Routine.nudge 0.0 Routine.nudgeDistance)
  | moveDown => some (Routine.nudge 0.0 (-Routine.nudgeDistance))
  | moveLeft => some (Routine.nudge (-Routine.nudgeDistance) 0.0)
  | moveRight => some (Routine.nudge Routine.nudgeDistance 0.0)
  | moveSteps => some Routine.moveSteps
  | turnRight => some (Routine.turn 1.0)
  | turnLeft => some (Routine.turn (-1.0))
  | gotoXY => some Routine.gotoXY
  | say => some Routine.say
  | think => some Routine.think
  | «show» => some (Routine.present true)
  | hide => some (Routine.present false)
  | custom _ => none

/-- **Every routine of the language is plain**, and has the effect of its operation. The cases are
those of `Operation.routine?`: glides, turns, changes that are seen for a while, and what does
nothing. -/
theorem Operation.plain_of_routine? {o : Operation} {r : Routine} (h : o.routine? = some r) :
    r.Plain fun b => o.effect b := by
  cases o <;> simp only [Operation.routine?, Option.some.injEq, reduceCtorEq] at h <;> subst h
  -- a nudge is a glide whose place depends on where the figure is
  case moveUp => exact plain_glideTo fun _ f => ⟨f.position.x + 0.0, f.position.y + nudgeDistance⟩
  case moveDown =>
    exact plain_glideTo fun _ f => ⟨f.position.x + 0.0, f.position.y + -nudgeDistance⟩
  case moveLeft =>
    exact plain_glideTo fun _ f => ⟨f.position.x + -nudgeDistance, f.position.y + 0.0⟩
  case moveRight =>
    exact plain_glideTo fun _ f => ⟨f.position.x + nudgeDistance, f.position.y + 0.0⟩
  case moveSteps =>
    exact plain_glideTo fun b f => walk f ((b.number? "steps").getD defaultSteps * stepSize)
  case gotoXY =>
    exact plain_glideTo fun b _ =>
      ⟨grid ((b.number? "x").getD 0.0), grid ((b.number? "y").getD 0.0)⟩
  case turnRight => exact plain_turn 1.0
  case turnLeft => exact plain_turn (-1.0)
  case say => exact plain_showFor (fun b => .toSpeech (.say (message b))) speechTime
  case think => exact plain_showFor (fun b => .toSpeech (.think (message b))) speechTime
  case «show» => exact plain_showFor (fun _ => .toVisible true) visibilityTime
  case hide => exact plain_showFor (fun _ => .toVisible false) visibilityTime
  case wait => exact plain_wait
  case start | repeatCount | repeatForever => exact plain_structural

/-! ### Parts of the language -/

namespace Repertoire

/-- **A repertoire that knows nothing beyond another one**: each of its kinds has the same routine
there. A repertoire may know as little as it likes, and a kind that it does not know is then
announced. -/
def IsPartOf (r r' : Repertoire) : Prop :=
  ∀ kind routine, r.find? kind = some routine → r'.find? kind = some routine

theorem IsPartOf.refl (r : Repertoire) : r.IsPartOf r := fun _ _ h => h

/-- **What a block makes of the figure of its owner** where a repertoire is known. A kind without a
routine leaves the figure as it is. -/
def effect (r : Repertoire) (b : Block) (f : Figure) : Figure :=
  if r.contains b.operation.tag then b.named.effect b f else f

@[simp] theorem find?_empty (kind : String) : empty.find? kind = none := rfl

/-- A routine that is registered is found under its kind, and all other kinds are as before. -/
theorem find?_register (r : Repertoire) (kind : String) (routine : Routine) (kind' : String) :
    (r.register kind routine).find? kind' = if kind' = kind then some routine else r.find? kind' := by
  unfold find? register
  rw [List.lookup_cons]
  by_cases hkind : kind' = kind
  · rw [if_pos hkind, hkind, beq_self_eq_true]
  · rw [if_neg hkind, beq_false_of_ne hkind]

/-- **The routine of a kind** is that of the operation that the kind names. So the routines are
registered under the tags that the operations are read from, and under no other ones: each entry of
the one table is met with the entry of the other, and a kind beyond both has no routine. -/
theorem find?_builtin (kind : String) :
    builtin.find? kind = (Operation.ofTag kind).routine? := by
  unfold Operation.ofTag
  -- the cases are the tags in the order in which they are read
  split
  -- a tag that is none of the sixteen
  case h_17 => simp_all [builtin, find?_register, Operation.routine?]
  all_goals rfl

/-- What a block does where all of the language is known is the routine of the operation that it
names. -/
theorem act_builtin (cue : Cue) (b : Block) {r : Routine} (h : b.named.routine? = some r) :
    builtin.act cue b = r cue b := by
  unfold act
  rw [find?_builtin, show Operation.ofTag b.operation.tag = b.named from rfl, h]

section IsPartOf

variable {r : Repertoire} (hr : r.IsPartOf builtin)

include hr

/-- Of a part of the language, the routine of a kind that is known is plain. What is said below of
acts is read off this, with a second case for the kinds that are not known. -/
theorem IsPartOf.plain {b : Block} {routine : Routine}
    (h : r.find? b.operation.tag = some routine) :
    routine.Plain fun b' => b.named.effect b' := by
  have hbuiltin := hr _ _ h
  rw [find?_builtin] at hbuiltin
  exact Operation.plain_of_routine? hbuiltin

/-- An act depends on the figure of the owner and on nothing else of the stage, not even on how many
frames there were. -/
theorem IsPartOf.act_congr {cue cue' : Cue} (b : Block) (h : cue.figure? = cue'.figure?) :
    r.act cue b = r.act cue' b := by
  unfold act
  cases hfind : r.find? b.operation.tag with
  | none => rfl
  | some routine => exact (hr.plain hfind).congr b h

/-- **A kind is announced exactly where it is not known**, and then it is announced once. -/
theorem IsPartOf.announced_act (cue : Cue) (b : Block) :
    announced (r.act cue b).effects =
      if r.contains b.operation.tag then [] else [b.operation.tag] := by
  unfold act contains
  cases hfind : r.find? b.operation.tag with
  | none => rfl
  | some routine => exact (hr.plain hfind).announced_eq cue b

/-- No act of a part of the language ends its chain, neither by giving up nor by breaking down. -/
theorem IsPartOf.act_goesOn (cue : Cue) (b : Block) :
    (r.act cue b).lapse ≠ .giveUp ∧ (r.act cue b).lapse ≠ .breakDown := by
  unfold act
  cases hfind : r.find? b.operation.tag with
  | none => exact ⟨by simp [unknownOperation], by simp [unknownOperation]⟩
  | some routine => exact (hr.plain hfind).goesOn cue b

/-- **An act comes to the effect of its block**, once its motion has ended. If the kind is not
known, act and effect both leave the figure as it is. -/
theorem IsPartOf.act_touch_land {cue : Cue} (b : Block) {f : Figure} (h : cue.figure? = some f) :
    (r.act cue b).lapse.land ((r.act cue b).touch f) = r.effect b f := by
  unfold act effect contains
  cases hfind : r.find? b.operation.tag with
  | none => rfl
  | some routine => exact (hr.plain hfind).touch_land cue b f h

end IsPartOf

end Repertoire

end StagePlay
