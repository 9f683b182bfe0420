/-!
# The guard

Only one run can go on at a time. A run begins by acquiring the guard, which gives it a number that
no run had before, and releases it when it is over, however that comes about.

Whoever wants to stop the run calls it off at the guard. That reaches the run that holds the guard
and no other one: a guard that nobody holds cannot be called off, and a new holder is not called off
yet.
-/

namespace StagePlay

/-- **The guard**: whether a run holds it, the number of the run that acquired it last, and whether
that run is called off. -/
structure Guard where
  held : Bool
  number : Nat
  calledOff : Bool
  deriving DecidableEq, Repr

namespace Guard

/-- A guard that nobody has held. -/
def fresh : Guard := ⟨false, 0, false⟩

/-- Acquiring the guard, if nobody holds it. -/
def acquire? (g : Guard) : Option Guard := if g.held then none else some ⟨true, g.number + 1, false⟩

/-- Releasing the guard. -/
def release (g : Guard) : Guard := { g with held := false }

/-- Calling off the run that acquired the guard last. -/
def callOff (g : Guard) : Guard := { g with calledOff := true }

/-- **Stopping the run that holds the guard**, if there is one. -/
def stop (g : Guard) : Guard := if g.held then g.callOff else g

/-- Whether a run is called off. -/
def isCalledOff (g : Guard) (number : Nat) : Bool := g.number = number && g.calledOff

end Guard

end StagePlay
