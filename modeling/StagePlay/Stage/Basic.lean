import StagePlay.Actor.Basic

/-!
# The stage

A stage is its backdrop and the figures on it, in the order of the roster. Ids may repeat in a
roster; the first figure of an id is the one that is found and changed.

* `Stage.set` — the stage at the beginning of a run;
* `Stage.figure?` — the figure of an id;
* `Stage.change?` — a change of one figure, if there is one of that id.
-/

namespace StagePlay

/-- **The stage.** -/
structure Stage where
  backdrop : Option Backdrop
  figures : List Figure
  deriving DecidableEq, Repr

/-- Changing the first figure of an id, if there is one. -/
def changeFirst (id : String) (c : Change) : List Figure → Option (List Figure)
  | [] => none
  | f :: fs => if f.id = id then some (f.apply c :: fs) else (changeFirst id c fs).map (f :: ·)

namespace Stage

/-- The stage with nobody on it. -/
def empty : Stage := ⟨none, []⟩

/-- The stage with every actor as it comes on. -/
def set (actors : List Actor) (backdrop : Option Backdrop) : Stage :=
  ⟨backdrop, actors.map Figure.ofActor⟩

/-- The first figure of an id. -/
def figure? (s : Stage) (id : String) : Option Figure := s.figures.find? fun f => f.id = id

/-- The id of the first figure. -/
def firstId? (s : Stage) : Option String := s.figures.head?.map Figure.id

/-- **Changing a figure**; nothing if there is none of that id. -/
def change? (s : Stage) (id : String) (c : Change) : Option Stage :=
  (changeFirst id c s.figures).map fun fs => { s with figures := fs }

end Stage

end StagePlay
