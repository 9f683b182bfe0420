/-!
# Environments

An environment gives values to names. A name that has a value keeps it when an environment is
extended.
-/

namespace StagePlay

/-- **An environment.** -/
structure Environment where
  entries : List (String × String)
  deriving DecidableEq, Repr

namespace Environment

/-- The environment without names. -/
def empty : Environment := ⟨[]⟩

/-- The value of a name. -/
def get? (e : Environment) (name : String) : Option String := e.entries.lookup name

/-- A value for a name that has none. -/
def extend (e : Environment) (name value : String) : Environment :=
  if (e.get? name).isSome then e else ⟨e.entries ++ [(name, value)]⟩

end Environment

end StagePlay
