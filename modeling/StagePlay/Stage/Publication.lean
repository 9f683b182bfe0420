import StagePlay.Stage.Basic

/-!
# Publishing the stage

A `PublicStage` shows every state of its stage to whoever watches it, in two ways. Observers are
given each state, in order, from the moment they are registered; what they were given is the list of
`deliveries`. A `Viewer` only ever sees the last state, and can tell whether any was shown since it
last looked.

The stage changes only through `PublicStage.set` and `PublicStage.change`; both show it.
-/

namespace StagePlay

/-- **A stage that is watched.** `edition` counts the states shown so far, and `shown` is the last
of them. -/
structure PublicStage where
  stage : Stage
  shown : Stage
  edition : Nat
  observers : List Nat
  deliveries : List (Nat × Stage)
  deriving DecidableEq, Repr

namespace PublicStage

/-- A stage that nobody has seen. -/
def fresh : PublicStage := ⟨.empty, .empty, 0, [], []⟩

/-- Showing a new state: to every observer in the order of registration, and to the viewers. Who is
registered twice is given it twice. -/
def publish (p : PublicStage) (s : Stage) : PublicStage :=
  { p with
    stage := s
    shown := s
    edition := p.edition + 1
    deliveries := p.deliveries ++ p.observers.map fun o => (o, s) }

/-- A new roster. -/
def set (p : PublicStage) (actors : List Actor) (backdrop : Option Backdrop) : PublicStage :=
  p.publish (.set actors backdrop)

/-- A change of one figure, and whether there is one of that id. Nothing is shown if there is none.
-/
def change (p : PublicStage) (id : String) (c : Change) : PublicStage × Bool :=
  match p.stage.change? id c with
  | some s => (p.publish s, true)
  | none => (p, false)

/-- One more observer. -/
def observe (p : PublicStage) (observer : Nat) : PublicStage :=
  { p with observers := p.observers ++ [observer] }

/-- What the observers were given, taken away. -/
def collect (p : PublicStage) : List (Nat × Stage) × PublicStage :=
  (p.deliveries, { p with deliveries := [] })

end PublicStage

/-- **Someone who looks at a stage** now and then, and has seen it up to some edition. -/
structure Viewer where
  seen : Nat
  deriving DecidableEq, Repr

namespace Viewer

/-- A viewer who has just come to a stage. -/
def ofStage (p : PublicStage) : Viewer := ⟨p.edition⟩

/-- Whether anything was shown since the viewer last looked. -/
def hasNews (v : Viewer) (p : PublicStage) : Bool := v.seen ≠ p.edition

/-- Looking at the last state. -/
def look (_ : Viewer) (p : PublicStage) : Stage × Viewer := (p.shown, ⟨p.edition⟩)

end Viewer

end StagePlay
