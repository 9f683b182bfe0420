/-!
# Outcomes and events

What a run tells the outside about itself. An `Event` is sent while the run goes on, and an
`Outcome` is how it ended. Events are told apart by the identifier of their run, whatever type that
is.

Of the events that nobody has taken yet, a `Mailbox` keeps only the last ones, and the number of
those it had to let go.
-/

namespace StagePlay

/-- **How a run ended.** -/
inductive Outcome where
  /-- Every chain ran to its end. -/
  | completed
  /-- The run was stopped, or one of its chains gave up. -/
  | stopped
  /-- There was nothing to run. -/
  | noStartBlock
  /-- Another run was going on. -/
  | ignored
  deriving DecidableEq, Repr

/-- The order in which the chains of a run have their turns: one after the other, or all at once. -/
inductive Scheduling where
  | sequential
  | concurrent
  deriving DecidableEq, Repr

/-- **What a run tells the outside.** `ρ` is the type of the identifiers of runs. -/
inductive Event (ρ : Type) where
  | runStarted (run : ρ)
  | noStartBlock
  | unknownOperation (block : String) (kind : String)
  | runFinished (run : ρ) (outcome : Outcome)
  deriving DecidableEq, Repr

/-- The run that an event names. -/
def Event.run? {ρ : Type} : Event ρ → Option ρ
  | .runStarted run => some run
  | .noStartBlock => none
  | .unknownOperation _ _ => none
  | .runFinished run _ => some run

/-! ### Events that wait to be taken -/

/-- How many events wait at most. -/
def mailboxCapacity : Nat := 64

/-- **The events that nobody has taken yet**, and how many were lost before them. -/
structure Mailbox (ρ : Type) where
  lost : Nat
  waiting : List (Event ρ)
  deriving DecidableEq, Repr

namespace Mailbox

variable {ρ : Type}

/-- No events. -/
def empty : Mailbox ρ := ⟨0, []⟩

/-- One more event. Beyond the capacity the oldest one is lost. -/
def add (m : Mailbox ρ) (e : Event ρ) : Mailbox ρ :=
  if m.waiting.length < mailboxCapacity then { m with waiting := m.waiting ++ [e] }
  else ⟨m.lost + 1, m.waiting.drop 1 ++ [e]⟩

end Mailbox

end StagePlay
