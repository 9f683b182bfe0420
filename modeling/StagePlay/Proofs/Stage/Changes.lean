import StagePlay.Proofs.Stage.Alter
import StagePlay.Stage.Publication

/-!
# Changes in a row

Changes of the figures of a stage obey a few laws, whatever the stage: ids may repeat on it, and an
id that is changed need not be there. `Stage.update` is a change as one gets to see it, the stage
after it together with the answer whether there was a figure to be changed; a stage that is watched
gives the same answer (`PublicStage.change_eq_update`).

* `Stage.Updated` — what one change does, and what it leaves alone;
* `Change.Apart` — changes that name no field in common;
* `Stage.update_laws` — two changes of one id are one change; changes of different ids, and changes
  of one id that are apart, can be made in either order; and a change that names nothing does
  nothing.

All of it is read off `Stage.alter`, which puts the first figure of an id through a function.
-/

namespace StagePlay

/-! ### Changes of a figure -/

/-- **Two changes that name no field in common.** Each field is left alone by one of the two, if not
by both. -/
structure Change.Apart (c d : Change) : Prop where
  position : c.position = none ∨ d.position = none
  heading : c.heading = none ∨ d.heading = none
  scale : c.scale = none ∨ d.scale = none
  visible : c.visible = none ∨ d.visible = none
  speech : c.speech = none ∨ d.speech = none

/-- Of two values, one of which is not there, either may come first. -/
theorem or_comm_of_eq_none {α : Type} {a b : Option α} (h : a = none ∨ b = none) :
    a.or b = b.or a := by
  rcases h with rfl | rfl
  · rw [Option.none_or, Option.or_none]
  · rw [Option.none_or, Option.or_none]

/-- Changes that are apart can be put together in either order: whichever of the two names a field,
the other one has nothing to say about it. -/
theorem Change.Apart.andThen_comm {c d : Change} (h : c.Apart d) : c.andThen d = d.andThen c := by
  unfold andThen
  rw [or_comm_of_eq_none h.position, or_comm_of_eq_none h.heading, or_comm_of_eq_none h.scale,
    or_comm_of_eq_none h.visible, or_comm_of_eq_none h.speech]

/-- **Two changes in a row are one change**, in which the later one prevails where both name a
field. -/
theorem Figure.apply_apply (f : Figure) (c d : Change) :
    (f.apply c).apply d = f.apply (c.andThen d) := by
  simp only [apply, Change.andThen, Option.getD_or]

theorem Change.eq_nothing_of_isEmpty {c : Change} (h : c.isEmpty = true) : c = .nothing :=
  of_decide_eq_true h

/-- **Who a figure is**: its id, its name and its image. No change can name any of these, so they
are what they were when the stage was set. -/
def Figure.who (f : Figure) : String × String × String := (f.id, f.name, f.imageRef)

/-! ### Changes of a list of figures -/

section AlterFirst

variable {id : String} {g : Figure → Figure}

/-- **The figure that is altered** stands in the place of the first one of its id. If there is none,
that place is behind the last figure, where there is nothing to be altered. -/
theorem alterFirst_eq_modify (fs : List Figure) :
    alterFirst id g fs = fs.modify (fs.findIdx fun f => f.id = id) g := by
  induction fs with
  | nil => rfl
  | cons f fs ih =>
    unfold alterFirst
    rw [List.findIdx_cons]
    by_cases hf : f.id = id
    · rw [if_pos hf, decide_eq_true hf]
      rfl
    · rw [if_neg hf, decide_eq_false hf, ih]
      rfl

/-- A function that leaves alone who a figure is leaves it alone for all of them. -/
theorem map_who_alterFirst (hg : ∀ f, (g f).who = f.who) (fs : List Figure) :
    (alterFirst id g fs).map Figure.who = fs.map Figure.who := by
  induction fs with
  | nil => rfl
  | cons f fs ih =>
    unfold alterFirst
    split
    · rw [List.map_cons, List.map_cons, hg]
    · rw [List.map_cons, List.map_cons, ih]

end AlterFirst

/-! ### Changes of a stage -/

namespace Stage

/-- **Alterations of different figures** can be made in either order. It would be tedious to follow
two searches through one list; that variations are told apart by the figures of owners makes it a
matter of three kinds of owners. -/
theorem alter_comm {owner owner' : Option String} (hne : owner ≠ owner') {g h : Figure → Figure}
    (hg : KeepsId g) (hh : KeepsId h) (s : Stage) :
    (s.alter owner g).alter owner' h = (s.alter owner' h).alter owner g := by
  have hleft : s.Variation ((s.alter owner g).alter owner' h) :=
    ((Variation.refl s).alter owner hg).alter owner' hh
  have hright : s.Variation ((s.alter owner' h).alter owner g) :=
    ((Variation.refl s).alter owner' hh).alter owner hg
  -- both come from one stage, so it is enough that every id has the same figure on them
  refine hleft.ext hright fun i => ?_
  -- the one owner, the other one, and anyone else
  by_cases hi : i = owner
  · rw [hi, figureOf?_alter_of_ne hh hne, figureOf?_alter_self hg, figureOf?_alter_self hg,
      figureOf?_alter_of_ne hh hne]
  · rw [figureOf?_alter_of_ne hg hi]
    by_cases hi' : i = owner'
    · rw [hi', figureOf?_alter_self hh, figureOf?_alter_self hh,
        figureOf?_alter_of_ne hg (Ne.symm hne)]
    · rw [figureOf?_alter_of_ne hh hi', figureOf?_alter_of_ne hh hi', figureOf?_alter_of_ne hg hi]

/-- **A change of a figure**, made if there is one of that id, and the answer whether there is. -/
def update (s : Stage) (id : String) (c : Change) : Stage × Bool :=
  ((s.change? id c).getD s, (s.change? id c).isSome)

/-- A change alters the figure of its id, and the figure answers for it: an alteration of nobody is
no alteration, so the answer needs no case of its own. -/
theorem update_eq (s : Stage) (id : String) (c : Change) :
    s.update id c = (s.alter (some id) (·.apply c), (s.figure? id).isSome) := by
  unfold update
  rw [change?_eq]
  change _ = (_, (s.figureOf? (some id)).isSome)
  cases hf : s.figureOf? (some id) with
  | none =>
    rw [alter_of_figureOf?_eq_none hf]
    rfl
  | some f => rfl

/-- **What a change does to a stage**, and what it leaves alone. -/
structure Updated (s : Stage) (id : String) (c : Change) (after : Stage × Bool) : Prop where
  /-- The answer is whether the id is found; -/
  found_iff : after.2 = true ↔ ∃ f, s.figure? id = some f
  /-- if it is not, the stage stays as it is. -/
  of_not_found : after.2 = false → after.1 = s
  /-- What the id finds is changed, -/
  figure?_self : after.1.figure? id = (s.figure? id).map (·.apply c)
  /-- and what any other id finds is not; -/
  figure?_of_ne : ∀ id', id' ≠ id → after.1.figure? id' = s.figure? id'
  /-- nor is any figure but the first one of the id, be it of the same id. -/
  getElem?_of_ne : ∀ k, k ≠ s.figures.findIdx (fun f => f.id = id) →
    after.1.figures[k]? = s.figures[k]?
  /-- There are as many figures, and the same ones in the same order, -/
  length_eq : after.1.figures.length = s.figures.length
  who_eq : after.1.figures.map Figure.who = s.figures.map Figure.who
  /-- before the same backdrop. -/
  backdrop_eq : after.1.backdrop = s.backdrop

/-- **What a change does**, field by field of `Updated`, is what `alter` does to the first figure of
the id: found again under the id, passed over by any other one, and in its place in the list. -/
theorem updated_update (s : Stage) (id : String) (c : Change) : s.Updated id c (s.update id c) := by
  rw [update_eq]
  have hid : KeepsId (·.apply c) := keepsId_apply c
  refine ⟨Option.isSome_iff_exists, ?of_not_found, ?_, ?_, ?_, ?_, ?_, rfl⟩
  case of_not_found =>
    -- where nothing is found, there is nothing to be altered
    intro hnot
    have hnone : s.figureOf? (some id) = none :=
      Option.isNone_iff_eq_none.mp (Option.isSome_eq_false_iff.mp hnot)
    exact alter_of_figureOf?_eq_none hnone
  · change (s.alter (some id) _).figureOf? (some id) = _
    exact figureOf?_alter_self hid s
  · intro id' hne
    exact figureOf?_alter_of_ne hid (fun h => hne (Option.some.inj h)) s
  -- by place and not by id: this also tells of later figures of the same id
  · intro k hk
    change (alterFirst id (·.apply c) s.figures)[k]? = _
    rw [alterFirst_eq_modify, List.getElem?_modify_ne _ _ (Ne.symm hk)]
  · change (alterFirst id (·.apply c) s.figures).length = _
    rw [alterFirst_eq_modify, List.length_modify]
  · exact map_who_alterFirst (g := (·.apply c)) (fun _ => rfl) s.figures

/-- A change does not decide whether there is a figure of an id. -/
theorem figure?_alter_isSome (s : Stage) (id id' : String) (c : Change) :
    ((s.alter (some id) (·.apply c)).figure? id').isSome = (s.figure? id').isSome := by
  change ((s.alter (some id) _).figureOf? (some id')).isSome = (s.figureOf? (some id')).isSome
  exact figureOf?_alter_isSome (keepsId_apply c) s

/-- Two changes of one id in a row are one change, and the answer is that of either of them. -/
theorem update_update (s : Stage) (id : String) (c d : Change) :
    (s.update id c).1.update id d = s.update id (c.andThen d) := by
  rw [update_eq, update_eq, update_eq, figure?_alter_isSome, alter_alter (keepsId_apply c)]
  simp only [Function.comp_def, Figure.apply_apply]

/-- A change has the same answer before and after a change of another id, and it makes no difference
which of the two is made first. -/
theorem update_update_of_ne (s : Stage) {id id' : String} (hne : id ≠ id') (c d : Change) :
    (s.update id c).1.update id' d = (((s.update id' d).1.update id c).1, (s.update id' d).2) := by
  have hne' : (some id : Option String) ≠ some id' := fun h => hne (Option.some.inj h)
  rw [update_eq, update_eq, update_eq, update_eq, figure?_alter_isSome,
    alter_comm hne' (keepsId_apply c) (keepsId_apply d)]

end Stage

/-- **A stage that is watched** is changed in this way, and gives this answer. Whether a state is
shown to anyone makes no difference to the state. -/
theorem PublicStage.change_eq_update (p : PublicStage) (id : String) (c : Change) :
    ((p.change id c).1.stage, (p.change id c).2) = p.stage.update id c := by
  unfold change Stage.update
  cases p.stage.change? id c <;> rfl

namespace Stage

/-- **The laws of changes**, on any stage. Two changes of one id are one change. Changes of
different ids can be made in either order, with the same answers, and so can changes of one id that
are apart. Each change does what `Updated` says; one that names nothing does nothing; and a stage
that is watched obeys the same laws. -/
theorem update_laws (s : Stage) :
    (∀ id c d, (s.update id c).1.update id d = s.update id (c.andThen d)) ∧
    (∀ id id' c d, id ≠ id' →
      (s.update id c).1.update id' d = (((s.update id' d).1.update id c).1, (s.update id' d).2)) ∧
    (∀ id c d, c.Apart d → (s.update id c).1.update id d = (s.update id d).1.update id c) ∧
    (∀ id c, s.Updated id c (s.update id c)) ∧
    (∀ id c, c.isEmpty = true → (s.update id c).1 = s) ∧
    ∀ p : PublicStage, p.stage = s → ∀ id c,
      ((p.change id c).1.stage, (p.change id c).2) = s.update id c := by
  refine ⟨s.update_update, fun id id' c d hne => s.update_update_of_ne hne c d, ?apart,
    s.updated_update, ?empty, ?watched⟩
  case apart =>
    intro id c d h
    rw [update_update, update_update, h.andThen_comm]
  case empty =>
    intro id c hc
    rw [Change.eq_nothing_of_isEmpty hc, update_eq]
    change s.alter (some id) _ = s
    exact alter_id s
  case watched =>
    rintro p rfl id c
    exact p.change_eq_update id c

/-- A stage with two figures of one id. -/
def sampleTwins : Stage :=
  .set [⟨"Cat", "Cat", "cat.png"⟩, ⟨"Dog", "Dog", "dog.png"⟩, ⟨"Cat", "Twin", "cat.png"⟩] none

/-- On a stage with twins, turning and hiding the first one come to the same in either order, a
change of the dog in between makes no difference, the twin further back stays as it is, and a change
of somebody unknown does nothing. -/
theorem sampleTwins_laws :
    let s := sampleTwins
    let turn := Change.toHeading 90.0
    let hide := Change.toVisible false
    let done := s.update "Cat" turn
    turn.Apart hide ∧ (done.1.update "Cat" hide) = (s.update "Cat" hide).1.update "Cat" turn ∧
      (done.1.update "Dog" turn).1 = ((s.update "Dog" turn).1.update "Cat" turn).1 ∧
      done.1.figures.map Figure.heading = [90.0, 0.0, 0.0] ∧
      done.1.figures[2]? = s.figures[2]? ∧ done.1.figure? "Dog" = s.figure? "Dog" ∧
      (s.update "Cow" turn).1 = s := by
  intro s turn hide done
  have happart : turn.Apart hide := ⟨.inr rfl, .inr rfl, .inl rfl, .inl rfl, .inl rfl⟩
  obtain ⟨-, hother, hsame, hupdated, -⟩ := update_laws s
  refine ⟨happart, hsame "Cat" turn hide happart, ?_, by decide +kernel, ?_, ?_, ?_⟩
  · exact congrArg Prod.fst (hother "Cat" "Dog" turn turn (by decide))
  · exact (hupdated "Cat" turn).getElem?_of_ne 2 (by decide)
  · exact (hupdated "Cat" turn).figure?_of_ne "Dog" (by decide)
  · exact (hupdated "Cow" turn).of_not_found (by decide)

end Stage

end StagePlay
