import StagePlay.Proofs.Chain.Way
import StagePlay.Proofs.Program.Lasting
import StagePlay.Proofs.Program.Lookup
import StagePlay.Project

/-!
# Tags

An operation is named by its tag in three places: where it is read, where it is written, and where
its routine is looked up. The routines are found by the tag, but which blocks start a chain and which
ones repeat a body is told by the operation. Here the places are compared.

* `Operation.isCustom_ofTag_iff` — a tag is read as a custom operation just where the language has no
  routine for it;
* `Block.Begins`, `Block.Repeats` — what a chain makes of a block besides its routine;
* `Block.structural_iff` — these are the blocks whose routine leaves everything to what follows, as
  far as their operation is the one that their tag names;
* `Program.Loaded.named_eq` — which is so for all blocks of a program that was read.
-/

namespace StagePlay

/-! ### Operations -/

namespace Operation

/-- Exactly the operations with a tag of their own have routines; a custom one has none in the
language. -/
theorem routine?_eq_none_iff (o : Operation) : o.routine? = none ↔ o.isCustom = true := by
  cases o <;> simp [routine?, isCustom]

/-- **A tag is read as a custom operation** just where the language has no routine for it. The tag
is looked for in two tables that are written down apart from each other, and here they are compared.
-/
theorem isCustom_ofTag_iff (s : String) :
    (ofTag s).isCustom = true ↔ Repertoire.builtin.contains s = false := by
  rw [← routine?_eq_none_iff, Repertoire.contains, Repertoire.find?_builtin,
    Option.isSome_eq_false_iff, Option.isNone_iff_eq_none]

/-- **The operations that leave everything to the blocks that follow** are those that take no time:
the start and the two repetitions. -/
theorem routine?_eq_structural_iff (o : Operation) :
    o.routine? = some Routine.structural ↔ o.isInstant = true := by
  constructor
  · intro h
    -- the routine goes on at once, whatever its cue
    have hordinary : Lapse.Ordinary o.isInstant .goOn :=
      ordinary_of_routine? h ⟨none, .empty, 0, false⟩ ⟨"", .start, .empty, [], none, []⟩
    generalize o.isInstant = instant at hordinary ⊢
    cases hordinary
    rfl
  · intro h
    cases o <;> first | rfl | exact nomatch h

theorem isInstant_iff (o : Operation) : o.isInstant = true ↔ o = start ∨ o.isContainer = true := by
  cases o <;> simp [isInstant, isContainer]

end Operation

/-! ### Blocks -/

namespace Block

/-- **A block that begins a chain** wherever it stands at the top of a program. It is said of all
programs, so that it is a property of the block. -/
def Begins (b : Block) : Prop := ∀ p : Program, b ∈ p.roots → b ∈ p.starts

/-- **A block that repeats a body**, if its arguments ask for it. A block whose arguments ask for no
round at all is still one. -/
def Repeats (b : Block) : Prop := ∃ as : Arguments, 0 < { b with arguments := as }.rounds

theorem begins_iff (b : Block) : b.Begins ↔ b.operation = .start := by
  constructor
  · intro h
    have hmem : b ∈ (Program.ofBlocks [b]).starts := h _ List.mem_cons_self
    simpa using (List.mem_filter.mp hmem).2
  · intro h p hb
    exact List.mem_filter.mpr ⟨hb, by simpa using h⟩

theorem repeats_iff (b : Block) : b.Repeats ↔ b.operation.isContainer = true := by
  constructor
  · rintro ⟨as, h⟩
    unfold rounds at h
    split at h
    · next hb => rw [show b.operation = .repeatCount from hb]; rfl
    · next hb => rw [show b.operation = .repeatForever from hb]; rfl
    · exact absurd h (Nat.lt_irrefl 0)
  · intro h
    refine ⟨.empty, ?_⟩
    obtain ⟨id, operation, arguments, children, next, blocks⟩ := b
    -- no argument is needed: each of the two has a number of its own
    cases operation <;> simp only [Operation.isContainer, Bool.false_eq_true] at h
    case repeatCount =>
      have hrounds : Number.nearestNat mostRounds defaultTimes = 10 := by decide +kernel
      change 0 < Number.nearestNat mostRounds defaultTimes
      rw [hrounds]
      decide
    case repeatForever => exact (by decide : 0 < foreverRounds)

/-- **What a chain makes of a block besides its routine** is told by the routine, where the block
has the operation that its tag names. So a block can be known for a start or a repetition from the
repertoire alone. -/
theorem structural_iff {b : Block} (hb : b.named = b.operation) :
    b.Begins ∨ b.Repeats ↔
      Repertoire.builtin.find? b.operation.tag = some Routine.structural := by
  rw [begins_iff, repeats_iff, Repertoire.find?_builtin, show Operation.ofTag _ = _ from hb,
    Operation.routine?_eq_structural_iff, Operation.isInstant_iff]

/-- The block and its kind, if its operation is a custom one: what would be announced of it. -/
def custom? (b : Block) : Option (String × String) :=
  match b.operation with
  | .custom kind => some (b.id, kind)
  | _ => none

/-- Where the language is known, the kinds without a routine are those of custom operations. The
announcement is made by looking up the routine, and this is told by the operation. -/
theorem unknown?_builtin {b : Block} (hb : b.named = b.operation) :
    Repertoire.builtin.unknown? b = b.custom? := by
  have hknown : Repertoire.builtin.contains b.operation.tag = b.operation.routine?.isSome := by
    rw [Repertoire.contains, Repertoire.find?_builtin, show Operation.ofTag _ = _ from hb]
  unfold Repertoire.unknown? custom?
  rw [hknown]
  cases b.operation <;> rfl

/-- What is inside a block that can be written can be written, too, at any depth. -/
theorem Sound.of_inside {d b : Block} (hd : d.Inside b) (hb : b.Sound) : d.Sound := by
  induction hd with
  | declared hc =>
    obtain ⟨-, -, blocks⟩ := hb
    exact blocks _ hc
  | deeper hc _ ih =>
    obtain ⟨-, -, blocks⟩ := hb
    exact ih (blocks _ hc)

theorem Sound.named_eq {b : Block} (hb : b.Sound) : b.named = b.operation := by
  obtain ⟨operation, -, -⟩ := hb
  exact operation

end Block

/-! ### Programs that were read -/

namespace Program

open Json

/-- **A program that was read from a text**, by itself or in a project. Other programs can be made
by hand, and may have a custom operation under the tag of a known one. -/
inductive Loaded : Program → Prop
  | alone {source : String} {p : Program} (h : ofJson source = .ok p) : Loaded p
  | inProject {source : String} {q : Project} (h : Project.ofJson source = .ok q) : Loaded q.program

/-- **The blocks of a program**: those that are declared in it, at the top or inside others, and
those that are found by their ids. -/
def Has (p : Program) (b : Block) : Prop := b ∈ listedBlocks p.roots ∨ ∃ id, p.find? id = some b

theorem Has.of_mem_roots {p : Program} {b : Block} (hb : b ∈ p.roots) : p.Has b :=
  .inl ((mem_listedBlocks b p.roots).mpr ⟨b, hb, .inl rfl⟩)

/-- The program of some blocks that can be written. What is read is of this form, and it is kept by
being put into a project. -/
def OfSound (p : Program) : Prop := p = ofBlocks p.roots ∧ ∀ b ∈ p.roots, b.Sound

theorem OfSound.of_decode {left : Nat} {node : Node} {p : Program} (hnode : node.Finite)
    (h : decode (left + 2) node = .ok p) : p.OfSound := by
  obtain ⟨hp, hroots⟩ := Program.of_decode hnode h
  exact ⟨hp, fun b hb => (hroots b hb).1⟩

theorem OfSound.empty : OfSound .empty := ⟨rfl, nofun⟩

/-- What is read with nothing trailing is what the root is decoded as, with all levels left. -/
theorem of_decodeSource {α : Type} {decode : Nat → Node → Except Error α} {source : String} {a : α}
    (h : decodeSource decode source = .ok a) : decode depthLimit (read source).root = .ok a := by
  obtain ⟨a', ha', htrailing⟩ := of_bind_eq_ok h
  split at htrailing
  · cases htrailing
  · cases htrailing
    exact ha'

theorem OfSound.of_project {left : Nat} {node : Node} {q : Project} (hnode : node.Finite)
    (h : Project.decode (left + 3) node = .ok q) : q.program.OfSound := by
  obtain ⟨d, hd, hq⟩ := of_bind_eq_ok h
  cases hq
  have hprogram : ∀ p ∈ d.program, p.OfSound := by
    refine Shape.decode_keeps (P := fun d : Project.Draft => ∀ p ∈ d.program, p.OfSound) ?_
      (by simp [Project.shape]) hnode hd
    intro f hf node d d' hnode hd h
    simp only [Project.shape, List.mem_cons, List.not_mem_nil, or_false] at hf
    rcases hf with rfl | rfl | rfl <;> obtain ⟨x, hx, h⟩ := of_bind_eq_ok h <;> cases h
    -- only the first field holds a program
    · rintro p ⟨rfl⟩
      exact .of_decode hnode hx
    · exact hd
    · exact hd
  show (d.program.getD .empty).OfSound
  cases hp : d.program with
  | none => exact .empty
  | some p => exact hprogram p hp

theorem Loaded.ofSound {p : Program} (h : p.Loaded) : p.OfSound := by
  cases h with
  | @alone source _ h => exact .of_decode (read_finite source) (of_decodeSource h)
  | @inProject source _ h => exact .of_project (read_finite source) (of_decodeSource h)

/-- **Every block of a program that was read has the operation that its tag names**, the declared
ones and those that are found by their ids. -/
theorem Loaded.named_eq {p : Program} (h : p.Loaded) {b : Block} (hb : p.Has b) :
    b.named = b.operation := by
  obtain ⟨hp, hroots⟩ := h.ofSound
  have hlisted : ∀ d ∈ listedBlocks p.roots, d.named = d.operation := by
    intro d hd
    obtain ⟨c, hc, rfl | hinside⟩ := (mem_listedBlocks d p.roots).mp hd
    · exact (hroots d hc).named_eq
    · exact ((hroots c hc).of_inside hinside).named_eq
  rcases hb with hb | ⟨id, hid⟩
  · exact hlisted b hb
  · -- what is found is one of the declared blocks, without those inside it
    rw [hp, find?_declared] at hid
    obtain ⟨d, hd, rfl⟩ := Option.map_eq_some_iff.mp hid
    exact hlisted d (List.mem_of_find?_eq_some hd)

end Program

end StagePlay
