import StagePlay.Stage.Basic

/-!
# Altering one figure

All that a chain ever does to a stage is to put the figure of its owner through a function. Here
this is `Stage.alter`, which needs no answer to the question whether the owner is on the stage: the
stage of an owner who is not there stays as it is.

* `Stage.figureOf?` is the figure of an owner, and `figureOf?_alter_self`, `figureOf?_alter_of_ne`
  tell what `alter` makes of it;
* `Stage.change?_eq` reads `Stage.change?` as an `alter`;
* `Stage.Variation` relates a stage to the one it came from: ids and their order are kept, and so is
  every figure that is not the first one of its id. Two variations of one stage on which every id
  has the same figure are equal (`Variation.ext`).

Ids may repeat in a roster, so an owner stands for the first figure of its id throughout.
-/

namespace StagePlay

/-- A function on figures that leaves alone who the figure is. What a chain does to the figure of
its owner is always of this kind, so it can never put its owner off the stage. -/
def KeepsId (g : Figure → Figure) : Prop := ∀ f, (g f).id = f.id

theorem keepsId_id : KeepsId id := fun _ => rfl

theorem keepsId_apply (c : Change) : KeepsId (·.apply c) := fun _ => rfl

/-- The figures with the first one of an id put through a function. Later figures of the id are not
reached, and if nobody has the id, nothing is. -/
def alterFirst (id : String) (g : Figure → Figure) : List Figure → List Figure
  | [] => []
  | f :: fs => if f.id = id then g f :: fs else f :: alterFirst id g fs

/-- The first figure of an id. A roster may give one id to several figures, and then the later ones
are never found. -/
def findFigure? (id : String) (fs : List Figure) : Option Figure := fs.find? fun f => f.id = id

/-! ### Altering a list of figures -/

section AlterFirst

variable {id id' : String} {g h : Figure → Figure}

theorem findFigure?_cons_of_eq {f : Figure} {fs : List Figure} (hf : f.id = id) :
    findFigure? id (f :: fs) = some f := by
  unfold findFigure?
  rw [List.find?_cons_of_pos (by simpa using hf)]

theorem findFigure?_cons_of_ne {f : Figure} {fs : List Figure} (hf : f.id ≠ id) :
    findFigure? id (f :: fs) = findFigure? id fs := by
  unfold findFigure?
  rw [List.find?_cons_of_neg (by simpa using hf)]

/-- Nothing is altered where nobody has the id. -/
theorem alterFirst_of_find?_eq_none {fs : List Figure} (hfs : findFigure? id fs = none) :
    alterFirst id g fs = fs := by
  induction fs with
  | nil => rfl
  | cons f fs ih =>
    unfold alterFirst
    by_cases hf : f.id = id
    · rw [findFigure?_cons_of_eq hf] at hfs
      exact absurd hfs (by simp)
    · rw [findFigure?_cons_of_ne hf] at hfs
      rw [if_neg hf, ih hfs]

/-- To put a figure through a function that does nothing does nothing. -/
theorem alterFirst_self (fs : List Figure) : alterFirst id (fun f => f) fs = fs := by
  induction fs with
  | nil => rfl
  | cons f fs ih =>
    unfold alterFirst
    rw [ih]
    split <;> rfl

/-- Only what the function makes of the one figure counts: two functions that agree on it, however
they differ elsewhere, alter the list alike. -/
theorem alterFirst_congr {fs : List Figure}
    (hgh : ∀ f, findFigure? id fs = some f → g f = h f) :
    alterFirst id g fs = alterFirst id h fs := by
  induction fs with
  | nil => rfl
  | cons f fs ih =>
    unfold alterFirst
    by_cases hf : f.id = id
    · rw [if_pos hf, if_pos hf, hgh f (findFigure?_cons_of_eq hf)]
    · rw [if_neg hf, if_neg hf, ih fun f' hf' => hgh f' (by rw [findFigure?_cons_of_ne hf, hf'])]

/-- **Two alterations of one id are one.** The first of them must keep the id, for otherwise the
second one could reach another figure. -/
theorem alterFirst_alterFirst (hg : KeepsId g) (fs : List Figure) :
    alterFirst id h (alterFirst id g fs) = alterFirst id (h ∘ g) fs := by
  induction fs with
  | nil => rfl
  | cons f fs ih =>
    by_cases hf : f.id = id
    -- the figure that was altered is still the first of its id
    · simp only [alterFirst, if_pos hf, if_pos ((hg f).trans hf), Function.comp_apply]
    · simp only [alterFirst, if_neg hf, ih]

/-- What the id finds after an alteration is the altered figure. -/
theorem findFigure?_alterFirst_self (hg : KeepsId g) (fs : List Figure) :
    findFigure? id (alterFirst id g fs) = (findFigure? id fs).map g := by
  induction fs with
  | nil => rfl
  | cons f fs ih =>
    unfold alterFirst
    by_cases hf : f.id = id
    · rw [if_pos hf, findFigure?_cons_of_eq hf, findFigure?_cons_of_eq ((hg f).trans hf),
        Option.map_some]
    · rw [if_neg hf, findFigure?_cons_of_ne hf, findFigure?_cons_of_ne hf, ih]

/-- **Any other id finds what it found before**, since the altered figure has kept its own. -/
theorem findFigure?_alterFirst_of_ne (hg : KeepsId g) (hid : id' ≠ id) (fs : List Figure) :
    findFigure? id' (alterFirst id g fs) = findFigure? id' fs := by
  induction fs with
  | nil => rfl
  | cons f fs ih =>
    unfold alterFirst
    by_cases hf : f.id = id
    -- the altered figure is not the one that the other id is after, so both searches pass it
    · have hf' : f.id ≠ id' := fun heq => hid (heq.symm.trans hf)
      rw [if_pos hf, findFigure?_cons_of_ne hf', findFigure?_cons_of_ne (by rw [hg f]; exact hf')]
    · rw [if_neg hf]
      by_cases hf' : f.id = id'
      · rw [findFigure?_cons_of_eq hf', findFigure?_cons_of_eq hf']
      · rw [findFigure?_cons_of_ne hf', findFigure?_cons_of_ne hf', ih]

/-- **Changing the first figure of an id is altering it**, if there is one. The search that changes
and the search that finds go through the figures in the same order. -/
theorem changeFirst_eq (c : Change) (fs : List Figure) :
    changeFirst id c fs =
      if (findFigure? id fs).isSome then some (alterFirst id (·.apply c) fs) else none := by
  induction fs with
  | nil => rfl
  | cons f fs ih =>
    unfold changeFirst alterFirst
    by_cases hf : f.id = id
    · rw [if_pos hf, if_pos hf, findFigure?_cons_of_eq hf, Option.isSome_some, if_pos rfl]
    · rw [if_neg hf, if_neg hf, findFigure?_cons_of_ne hf, ih]
      split <;> rfl

end AlterFirst

/-! ### Altering a stage -/

namespace Stage

/-- The figure of an owner, if the owner is on the stage. A start block without an owner is owned by
nobody, and nobody has no figure. -/
def figureOf? (s : Stage) (owner : Option String) : Option Figure := owner.bind s.figure?

/-- **Putting the figure of an owner through a function.** Nobody's figure is put through nothing.
-/
def alter (s : Stage) (owner : Option String) (g : Figure → Figure) : Stage :=
  match owner with
  | none => s
  | some id => { s with figures := alterFirst id g s.figures }

variable {owner owner' : Option String} {g h : Figure → Figure}

theorem figureOf?_some (s : Stage) (id : String) :
    s.figureOf? (some id) = findFigure? id s.figures := rfl

@[simp] theorem figureOf?_none (s : Stage) : s.figureOf? none = none := rfl

@[simp] theorem alter_id (s : Stage) : s.alter owner id = s := by
  cases owner with
  | none => rfl
  | some i =>
    change ({ s with figures := alterFirst i (fun f => f) s.figures } : Stage) = s
    rw [alterFirst_self]

theorem alter_of_figureOf?_eq_none {s : Stage} (hs : s.figureOf? owner = none) :
    s.alter owner g = s := by
  cases owner with
  | none => rfl
  | some i => simp only [alter, alterFirst_of_find?_eq_none (g := g) (by exact hs)]

/-- Only what the function makes of the figure of the owner counts. -/
theorem alter_congr {s : Stage} (hgh : ∀ f, s.figureOf? owner = some f → g f = h f) :
    s.alter owner g = s.alter owner h := by
  cases owner with
  | none => rfl
  | some i => simp only [alter, alterFirst_congr (g := g) (h := h) (by exact hgh)]

theorem alter_alter (hg : KeepsId g) (s : Stage) :
    (s.alter owner g).alter owner h = s.alter owner (h ∘ g) := by
  cases owner with
  | none => rfl
  | some i => simp only [alter, alterFirst_alterFirst hg]

/-- The figure of the owner is put through the function. -/
theorem figureOf?_alter_self (hg : KeepsId g) (s : Stage) :
    (s.alter owner g).figureOf? owner = (s.figureOf? owner).map g := by
  cases owner with
  | none => rfl
  | some i => exact findFigure?_alterFirst_self hg s.figures

/-- **The figure of any other owner stays as it is.** This is what keeps chains of different owners
from getting into each other's way. -/
theorem figureOf?_alter_of_ne (hg : KeepsId g) (hne : owner' ≠ owner) (s : Stage) :
    (s.alter owner g).figureOf? owner' = s.figureOf? owner' := by
  cases owner with
  | none => rfl
  | some i =>
    cases owner' with
    -- whoever is nobody has no figure, before as after
    | none => rfl
    | some i' =>
      exact findFigure?_alterFirst_of_ne hg (fun h => hne (congrArg some h)) s.figures

/-- Nobody comes on and nobody leaves when a figure is altered. -/
theorem figureOf?_alter_isSome (hg : KeepsId g) (s : Stage) :
    ((s.alter owner g).figureOf? owner').isSome = (s.figureOf? owner').isSome := by
  by_cases hne : owner' = owner
  · rw [hne, figureOf?_alter_self hg, Option.isSome_map]
  · rw [figureOf?_alter_of_ne hg hne]

/-- **A change of a figure is an alteration**, if there is a figure to change. From here on nothing
about changes is proved by going through the figures. -/
theorem change?_eq (s : Stage) (id : String) (c : Change) :
    s.change? id c =
      if (s.figureOf? (some id)).isSome then some (s.alter (some id) (·.apply c)) else none := by
  rw [figureOf?_some]
  unfold change? alter
  rw [changeFirst_eq]
  split <;> rfl

end Stage

/-! ### Variations -/

/-- **Figures that came from others** by altering first figures of ids. The second condition is on
the figures that follow: one of them that has the id of a figure before it was never altered. -/
inductive FiguresVary : List Figure → List Figure → Prop where
  | nil : FiguresVary [] []
  | cons {f f' : Figure} {fs fs' : List Figure} (hid : f'.id = f.id)
      (hlater : findFigure? f.id fs' = findFigure? f.id fs) (hrest : FiguresVary fs fs') :
      FiguresVary (f :: fs) (f' :: fs')

namespace FiguresVary

theorem refl : ∀ fs : List Figure, FiguresVary fs fs
  | [] => .nil
  | _ :: fs => .cons rfl rfl (refl fs)

/-- **An alteration of a variation is a variation.** The altered figure is the first of its id, so
it is either the head, of which only the id is fixed, or further back and then of another id than
the head. -/
theorem alterFirst {fs fs' : List Figure} (h : FiguresVary fs fs') (id : String)
    {g : Figure → Figure} (hg : KeepsId g) : FiguresVary fs (alterFirst id g fs') := by
  induction h with
  | nil => exact .nil
  | @cons f f' fs fs' hid hlater hrest ih =>
    unfold StagePlay.alterFirst
    by_cases hf : f'.id = id
    · rw [if_pos hf]
      exact .cons ((hg f').trans hid) hlater hrest
    · rw [if_neg hf]
      have hne : f.id ≠ id := fun h => hf (hid.trans h)
      -- it is further back, where the id of the head finds what it found before
      exact .cons hid ((findFigure?_alterFirst_of_ne hg hne fs').trans hlater) ih

/-- **Figures that came from the same ones are equal** if every id has the same first figure. Along
the list, the head is found by its own id; for the rest, an id either is not that of the head, or
finds a figure that was never altered. -/
theorem ext {fs fs₁ fs₂ : List Figure} (h₁ : FiguresVary fs fs₁) (h₂ : FiguresVary fs fs₂)
    (h : ∀ id, findFigure? id fs₁ = findFigure? id fs₂) : fs₁ = fs₂ := by
  induction h₁ generalizing fs₂ with
  | nil =>
    cases h₂
    rfl
  | @cons f f₁ fs fs₁ hid₁ hlater₁ hrest₁ ih =>
    cases h₂ with
    | @cons _ f₂ _ fs₂ hid₂ hlater₂ hrest₂ =>
      -- the two heads are what their id finds in the two lists
      have hhead := h f.id
      rw [findFigure?_cons_of_eq hid₁, findFigure?_cons_of_eq hid₂] at hhead
      obtain rfl := Option.some.inj hhead
      congr 1
      refine ih hrest₂ fun id => ?_
      by_cases hne : f.id = id
      · -- figures of this id further back are those of the common origin
        rw [← hne, hlater₁, hlater₂]
      · have hne₁ : f₁.id ≠ id := fun h => hne (hid₁.symm.trans h)
        have hid := h id
        rwa [findFigure?_cons_of_ne hne₁, findFigure?_cons_of_ne hne₁] at hid

end FiguresVary

/-- **A stage that came from another one** by altering figures of owners. All that a run makes of a
stage, after it was set, is of this kind. -/
structure Stage.Variation (s s' : Stage) : Prop where
  backdrop_eq : s'.backdrop = s.backdrop
  figures : FiguresVary s.figures s'.figures

namespace Stage.Variation

theorem refl (s : Stage) : s.Variation s := ⟨rfl, .refl _⟩

theorem alter {s s' : Stage} (h : s.Variation s') (owner : Option String) {g : Figure → Figure}
    (hg : KeepsId g) : s.Variation (s'.alter owner g) := by
  cases owner with
  | none => exact h
  | some id => exact ⟨h.backdrop_eq, h.figures.alterFirst id hg⟩

/-- **Variations of one stage are told apart by the figures of owners.** So two runs end on the same
stage if they leave every owner with the same figure, however differently they went about it. -/
theorem ext {s s₁ s₂ : Stage} (h₁ : s.Variation s₁) (h₂ : s.Variation s₂)
    (h : ∀ owner, s₁.figureOf? owner = s₂.figureOf? owner) : s₁ = s₂ := by
  have hbackdrop : s₁.backdrop = s₂.backdrop := h₁.backdrop_eq.trans h₂.backdrop_eq.symm
  have hfigures : s₁.figures = s₂.figures := h₁.figures.ext h₂.figures fun id => h (some id)
  calc s₁ = ⟨s₁.backdrop, s₁.figures⟩ := rfl
    _ = ⟨s₂.backdrop, s₂.figures⟩ := by rw [hbackdrop, hfigures]

end Stage.Variation

end StagePlay
