import StagePlay.Proofs.Routine.Effect

/-!
# The field of an operation

An operation of the language that shows anything at all shows it in one field of one figure: a move
in the position of its owner, a turn in the heading, a speech in what is said, and showing or hiding
in the visibility.

* `Operation.field?` is that field, and `Repertoire.field?` the field of a block where a repertoire
  is known; a kind without a routine has none.
* `Stage.DiffersAt` relates two states of a stage that differ in a field of the first figure of an
  owner, and in nothing else.
* `Repertoire.IsPartOf.staysIn`: what a block of the language does at once, and every frame of the
  motion that follows, stays in the field of its operation.
* `Stage.Retains` is what remains of a stage when only fields of the first figures of some owners
  change, however often.
-/

namespace StagePlay

/-- **The fields of a figure** that operations of the language change. -/
inductive Field where
  | position
  | heading
  | visible
  | speech
  deriving DecidableEq, Repr

/-- **Two figures that differ in a field** at most. Said by an equation, so that whatever else a
figure may come to have is kept as well. -/
def Figure.AgreesBut (f : Figure) : Field → Figure → Prop
  | .position, g => g = { f with position := g.position }
  | .heading, g => g = { f with heading := g.heading }
  | .visible, g => g = { f with visible := g.visible }
  | .speech, g => g = { f with speech := g.speech }

/-- **The field in which an operation shows**, if it shows at all. No operation shows in two of
them, which is why frames can be told apart by where they differ. -/
def Operation.field? : Operation → Option Field
  | moveSteps | moveUp | moveDown | moveLeft | moveRight | gotoXY => some .position
  | turnRight | turnLeft => some .heading
  | say | think => some .speech
  | «show» | hide => some .visible
  | start | wait | repeatCount | repeatForever | custom _ => none

/-- The field in which a block shows where a repertoire is known. -/
def Repertoire.field? (r : Repertoire) (b : Block) : Option Field :=
  if r.contains b.operation.tag then b.named.field? else none

/-- A block with a field is of a known kind, and of one that shows something: a start, a wait and
the repetitions have no field. -/
theorem Repertoire.loud_of_field? {r : Repertoire} {b : Block} (h : (r.field? b).isSome) :
    r.contains b.operation.tag ∧ b.named ∉ [.start, .wait, .repeatCount, .repeatForever] := by
  unfold field? at h
  split at h
  · next hknown =>
    refine ⟨hknown, fun hsilent => ?_⟩
    simp only [List.mem_cons, List.not_mem_nil, or_false] at hsilent
    rcases hsilent with hb | hb | hb | hb <;>
    · rw [hb] at h
      exact absurd h Bool.false_ne_true
  · exact absurd h Bool.false_ne_true

/-- A change that names no field but one: whatever figure it is made on, the outcome differs there
at most. -/
def Change.StaysIn (c : Change) (field : Field) : Prop := ∀ f : Figure, f.AgreesBut field (f.apply c)

theorem Change.staysIn_toSpeech (s : Speech) : (toSpeech s).StaysIn .speech := fun _ => rfl

theorem Change.staysIn_toVisible (v : Bool) : (toVisible v).StaysIn .visible := fun _ => rfl

/-- Nothing but one field tells two figures apart, who they are least of all: name, picture and size
are no fields of operations. -/
theorem Figure.AgreesBut.identity {f g : Figure} {field : Field} (h : f.AgreesBut field g) :
    g.id = f.id ∧ g.name = f.name ∧ g.imageRef = f.imageRef ∧ g.scale = f.scale := by
  cases field <;>
  · rw [show g = _ from h]
    exact ⟨rfl, rfl, rfl, rfl⟩

/-! ### Acts -/

/-- **What an act shows stays in a field**, if there is one: at once, and in every frame. Without a
field it shows nothing. -/
structure Act.StaysIn (a : Act) (field? : Option Field) : Prop where
  effects : ∀ c, .change c ∈ a.effects → ∃ field, field? = some field ∧ c.StaysIn field
  motion : ∀ d m, a.lapse = .animate d m → ∃ field, field? = some field ∧
    ∀ t, (m.change t).StaysIn field

namespace Routine

/-- A pause shows nothing. -/
theorem staysIn_pause {effects : List Effect} (heffects : ∀ c, .change c ∉ effects) (d : Duration)
    (field? : Option Field) : (Act.mk effects (.pause d)).StaysIn field? where
  effects c hc := absurd hc (heffects c)
  motion _ _ hlapse := nomatch hlapse

theorem staysIn_glideTo (place : Figure → Point) (cue : Cue) :
    (glideTo place cue).StaysIn (some .position) := by
  unfold glideTo
  split
  · exact staysIn_pause (fun _ => List.not_mem_nil) _ _
  · refine ⟨fun c hc => absurd hc List.not_mem_nil, fun d m hlapse => ?_⟩
    obtain ⟨-, rfl⟩ := Lapse.animate.inj hlapse
    exact ⟨.position, rfl, fun _ _ => rfl⟩

theorem staysIn_turn (sign : Float) (cue : Cue) (b : Block) :
    (turn sign cue b).StaysIn (some .heading) := by
  unfold turn
  split
  · exact staysIn_pause (fun _ => List.not_mem_nil) _ _
  · refine ⟨fun c hc => absurd hc List.not_mem_nil, fun d m hlapse => ?_⟩
    obtain ⟨-, rfl⟩ := Lapse.animate.inj hlapse
    exact ⟨.heading, rfl, fun _ _ => rfl⟩

theorem staysIn_showFor {c : Change} {field : Field} (hc : c.StaysIn field) (ms : Nat) :
    (Act.showFor c ms).StaysIn (some field) where
  effects := by
    intro c' hc'
    obtain rfl := Effect.change.inj (List.mem_singleton.mp hc')
    exact ⟨field, rfl, hc⟩
  motion _ _ hlapse := nomatch hlapse

end Routine

open Routine

/-- **A routine of the language stays in the field of its operation**: each is a glide, a turn,
something shown for a while, or a pause. -/
theorem Operation.staysIn_of_routine? {o : Operation} {r : Routine} (h : o.routine? = some r)
    (cue : Cue) (b : Block) : (r cue b).StaysIn o.field? := by
  -- a custom kind has no routine, so no case is left of it
  cases o <;> simp only [Operation.routine?, Option.some.injEq, reduceCtorEq] at h <;> subst h
  case moveUp | moveDown | moveLeft | moveRight | moveSteps | gotoXY => exact staysIn_glideTo _ cue
  case turnRight | turnLeft => exact staysIn_turn _ cue b
  case say | think => exact staysIn_showFor (Change.staysIn_toSpeech _) speechTime
  case «show» | hide => exact staysIn_showFor (Change.staysIn_toVisible _) visibilityTime
  case wait => exact staysIn_pause (fun _ => List.not_mem_nil) _ _
  case start | repeatCount | repeatForever =>
    exact ⟨fun c hc => absurd hc List.not_mem_nil,
      fun _ _ hlapse => absurd hlapse (by simp [structural, Act.nothing])⟩

/-- **A block stays in its field** where a part of the language is known. A kind without a routine
shows nothing. -/
theorem Repertoire.IsPartOf.staysIn {r : Repertoire} (hr : r.IsPartOf builtin) (cue : Cue)
    (b : Block) : (r.act cue b).StaysIn (r.field? b) := by
  unfold act field? contains
  cases hfind : r.find? b.operation.tag with
  | none => exact staysIn_pause (fun c hc => absurd (List.mem_singleton.mp hc) (by simp)) _ _
  | some routine =>
    -- a routine of the part is the one that the whole language has of the kind
    have hbuiltin := hr _ _ hfind
    rw [find?_builtin] at hbuiltin
    exact Operation.staysIn_of_routine? hbuiltin cue b

/-! ### Stages -/

namespace Stage

/-- **Two states of a stage that differ at an owner**: in one field of the first figure of its id,
and in nothing else. Another figure of the same id is not touched, as changes find the first one. -/
def DiffersAt (s : Stage) (owner : Option String) (field : Field) (s' : Stage) : Prop :=
  s'.backdrop = s.backdrop ∧ ∃ before f f' after,
    s.figures = before ++ f :: after ∧ s'.figures = before ++ f' :: after ∧
      owner = some f.id ∧ (∀ g ∈ before, g.id ≠ f.id) ∧ f.AgreesBut field f'

/-- The figure that a change finds is the first one of the id: those before it have other ids, and
those after it are left alone. -/
theorem changeFirst_eq_some {id : String} {c : Change} {fs fs' : List Figure}
    (h : changeFirst id c fs = some fs') :
    ∃ before f after, fs = before ++ f :: after ∧ fs' = before ++ f.apply c :: after ∧
      f.id = id ∧ ∀ g ∈ before, g.id ≠ id := by
  induction fs generalizing fs' with
  | nil => exact absurd h (by simp [changeFirst])
  | cons f fs ih =>
    unfold changeFirst at h
    by_cases hf : f.id = id
    · rw [if_pos hf] at h
      obtain rfl := Option.some.inj h
      exact ⟨[], f, fs, rfl, rfl, hf, fun _ hg => absurd hg List.not_mem_nil⟩
    · rw [if_neg hf] at h
      -- a figure of another id is one more of those before
      obtain ⟨fs'', hrest, rfl⟩ := Option.map_eq_some_iff.mp h
      obtain ⟨before, g, after, rfl, rfl, hg, hbefore⟩ := ih hrest
      refine ⟨f :: before, g, after, rfl, rfl, hg, fun g' hg' => ?_⟩
      rcases List.mem_cons.mp hg' with rfl | hg'
      · exact hf
      · exact hbefore g' hg'

/-- **A change that stays in a field** makes a difference there at most; it makes none at all if the
field has that value already. -/
theorem differsAt_of_change? {s s' : Stage} {id : String} {c : Change} {field : Field}
    (h : s.change? id c = some s') (hc : c.StaysIn field) : s.DiffersAt (some id) field s' := by
  unfold change? at h
  obtain ⟨fs', hchange, rfl⟩ := Option.map_eq_some_iff.mp h
  obtain ⟨before, f, after, hfigures, rfl, rfl, hbefore⟩ := changeFirst_eq_some hchange
  exact ⟨rfl, before, f, f.apply c, after, hfigures, rfl, rfl, hbefore, hc f⟩

/-- **Where two stages differ**: at the place of one figure, the first one of the owner. This is the
same by index, which is how many differences are put together. -/
theorem DiffersAt.at_place {s s' : Stage} {owner : Option String} {field : Field}
    (h : s.DiffersAt owner field s') : s'.backdrop = s.backdrop ∧ ∃ i f f',
      s.figures[i]? = some f ∧ s'.figures = s.figures.set i f' ∧ owner = some f.id ∧
      (∀ j g, j < i → s.figures[j]? = some g → g.id ≠ f.id) ∧ f.AgreesBut field f' := by
  obtain ⟨hbackdrop, before, f, f', after, hfigures, hfigures', howner, hbefore, hagrees⟩ := h
  refine ⟨hbackdrop, before.length, f, f', ?here, ?set, howner, ?first, hagrees⟩
  case here =>
    rw [hfigures, List.getElem?_append_right (Nat.le_refl _), Nat.sub_self]
    rfl
  case set =>
    rw [hfigures, hfigures', List.set_append_right _ _ (Nat.le_refl _), Nat.sub_self]
    rfl
  case first =>
    intro j g hj hg
    rw [hfigures, List.getElem?_append_left hj] at hg
    exact hbefore g (List.mem_of_getElem? hg)

/-- **What remains of a stage** when nothing but fields of the first figures of some owners changes:
the backdrop, who is on the stage and in what order, every size, and every other figure as a
whole. -/
structure Retains (s : Stage) (owners : String → Prop) (s' : Stage) : Prop where
  backdrop_eq : s'.backdrop = s.backdrop
  length_eq : s'.figures.length = s.figures.length
  /-- Figure by figure, who it is stays the same. -/
  identity : ∀ (i : Nat) (f f' : Figure), s.figures[i]? = some f → s'.figures[i]? = some f' →
    f'.id = f.id ∧ f'.name = f.name ∧ f'.imageRef = f.imageRef ∧ f'.scale = f.scale
  /-- A figure that no owner has, or that is not the first one of its id, stays as it is. -/
  others : ∀ (i : Nat) (f : Figure), s.figures[i]? = some f →
    (¬owners f.id ∨ ∃ j, ∃ g : Figure, j < i ∧ s.figures[j]? = some g ∧ g.id = f.id) →
      s'.figures[i]? = some f

namespace Retains

variable {s s' s'' : Stage} {owners : String → Prop}

theorem refl (s : Stage) (owners : String → Prop) : s.Retains owners s where
  backdrop_eq := rfl
  length_eq := rfl
  identity i f f' hf hf' := by
    obtain rfl := Option.some.inj (hf.symm.trans hf')
    exact ⟨rfl, rfl, rfl, rfl⟩
  others _ _ hf _ := hf

/-- **One more difference at an owner** leaves what remained. Who the figures are stays, and so does
every figure of which something was promised: the one that differs now is none of these. -/
theorem trans_differsAt (h : s.Retains owners s') {owner : Option String} {field : Field}
    (hdiffers : s'.DiffersAt owner field s'') (howner : ∀ id, owner = some id → owners id) :
    s.Retains owners s'' := by
  obtain ⟨hbackdrop, k, g, g', hg, hfigures, rfl, hfirst, hagrees⟩ := hdiffers.at_place
  have hk : k < s'.figures.length := (List.getElem?_eq_some_iff.mp hg).1
  have hother : ∀ i, i ≠ k → s''.figures[i]? = s'.figures[i]? := fun i hi => by
    rw [hfigures, List.getElem?_set_ne (Ne.symm hi)]
  refine ⟨hbackdrop.trans h.backdrop_eq, ?length, ?identity, ?others⟩
  case length => rw [hfigures, List.length_set, h.length_eq]
  case identity =>
    intro i f f'' hf hf''
    by_cases hi : i = k
    · subst hi
      rw [hfigures, List.getElem?_set_self hk] at hf''
      obtain rfl := Option.some.inj hf''
      obtain ⟨hid, hname, himage, hscale⟩ := h.identity _ f g hf hg
      obtain ⟨hid', hname', himage', hscale'⟩ := hagrees.identity
      exact ⟨hid'.trans hid, hname'.trans hname, himage'.trans himage, hscale'.trans hscale⟩
    · rw [hother i hi] at hf''
      exact h.identity i f f'' hf hf''
  case others =>
    intro i f hf hnot
    by_cases hi : i = k
    · -- the figure that differs is the first one of an owner, so nothing was promised of it
      subst hi
      have hid : g.id = f.id := (h.identity _ f g hf hg).1
      rcases hnot with hnobody | ⟨j, d, hj, hd, hsame⟩
      · exact absurd (howner g.id rfl) (by rwa [hid])
      · have hj' := List.getElem?_eq_getElem (Nat.lt_trans hj hk)
        have hearlier := (h.identity j d _ hd hj').1
        exact absurd (hearlier.trans (hsame.trans hid.symm)) (hfirst j _ hj hj')
    · rw [hother i hi]
      exact h.others i f hf hnot

end Retains

end Stage

end StagePlay
