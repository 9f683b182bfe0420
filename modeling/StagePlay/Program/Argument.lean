import StagePlay.Number.Layout
import StagePlay.Number.Numeral
import StagePlay.Text.Blank

/-!
# Arguments of a block

An `Argument` is a number or a text. Whoever writes programs may send a number as text, so a text
counts as the number that it spells; a value that is not finite counts as none.

`Arguments` are the arguments of a block by name. Each name has one argument, the one given last.
They are kept in the order of their names, so two sets of arguments are equal exactly when they give
the same to each name.
-/

namespace StagePlay

open Number Text

/-- **An argument.** -/
inductive Argument where
  | number (x : Float)
  | text (s : String)
  deriving DecidableEq, Repr

namespace Argument

/-- A finite number, or nothing. -/
def finite? (x : Float) : Option Float := if isFinite x then some x else none

/-- **The number that an argument stands for**, if it is finite. White space around a text does not
count. -/
def number? : Argument → Option Float
  | number x => finite? x
  | text s => (readFloat? (trim s.toList)).bind finite?

/-- An argument as text. -/
def shown : Argument → String
  | number x => Layout.plain.write x
  | text s => s

end Argument

/-! ### Arguments by name -/

/-- Putting an argument into its place among the names. -/
def putArgument (name : String) (a : Argument) : List (String × Argument) → List (String × Argument)
  | [] => [(name, a)]
  | (name', a') :: rest =>
    if name < name' then (name, a) :: (name', a') :: rest
    else if name = name' then (name, a) :: rest
    else (name', a') :: putArgument name a rest

/-- Only one name is new after `putArgument`. -/
theorem mem_putArgument {name : String} {a : Argument} {e : String × Argument} :
    ∀ {entries : List (String × Argument)}, e ∈ putArgument name a entries →
      e = (name, a) ∨ e ∈ entries
  | [], h => .inl (by simpa [putArgument] using h)
  | (name', a') :: rest, h => by
    unfold putArgument at h
    split at h
    · simpa using h
    · split at h
      · rcases List.mem_cons.mp h with h | h
        · exact .inl h
        · exact .inr (List.mem_cons_of_mem _ h)
      · rcases List.mem_cons.mp h with h | h
        · exact .inr (h ▸ List.mem_cons_self)
        · rcases mem_putArgument h with h | h
          · exact .inl h
          · exact .inr (List.mem_cons_of_mem _ h)

/-- The order of names is kept. -/
theorem sorted_putArgument {name : String} {a : Argument} :
    ∀ {entries : List (String × Argument)}, entries.Pairwise (fun e f => e.1 < f.1) →
      (putArgument name a entries).Pairwise (fun e f => e.1 < f.1)
  | [], _ => by simp [putArgument]
  | (name', a') :: rest, h => by
    obtain ⟨first, others⟩ := List.pairwise_cons.mp h
    unfold putArgument
    split
    · next lt =>
      refine List.pairwise_cons.mpr ⟨fun e he => ?_, h⟩
      rcases List.mem_cons.mp he with he | he
      · exact he ▸ lt
      · exact String.lt_trans lt (first e he)
    · next notLt =>
      split
      · next eq => exact List.pairwise_cons.mpr ⟨fun e he => eq ▸ first e he, others⟩
      · next ne =>
        refine List.pairwise_cons.mpr ⟨fun e he => ?_, sorted_putArgument others⟩
        rcases mem_putArgument he with he | he
        · subst he
          exact Std.lt_of_le_of_ne (String.not_lt.mp notLt) (Ne.symm ne)
        · exact first e he

/-- **The arguments of a block**, by name. -/
structure Arguments where
  entries : List (String × Argument)
  sorted : entries.Pairwise (fun e f => e.1 < f.1)
  deriving DecidableEq

namespace Arguments

instance : Repr Arguments := ⟨fun a n => reprPrec a.entries n⟩

/-- No arguments. -/
def empty : Arguments := ⟨[], .nil⟩

/-- Giving an argument to a name. -/
def insert (as : Arguments) (name : String) (a : Argument) : Arguments :=
  ⟨putArgument name a as.entries, sorted_putArgument as.sorted⟩

/-- The argument of a name. -/
def get? (as : Arguments) (name : String) : Option Argument := as.entries.lookup name

end Arguments

end StagePlay
