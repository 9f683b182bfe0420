import StagePlay.Program.Basic
import StagePlay.Proofs.Routine.Effect

/-!
# How numbers are written

A number among the arguments of a block may be written as a number or as a text that spells it, and
an argument that stands for no number counts as if it were not there. Only the words of a speech and
the actor of a start block are taken as they are written.

* `Arguments.ReadAlike`, `Block.ReadAlike` — arguments and blocks that are equal but for how their
  numbers are written;
* `Arguments.asRead`, `Block.asRead`, `Program.asRead` — each number written as a number, and nothing
  else beside the words and the actor. What is read alike becomes equal by it
  (`Arguments.readAlike_iff`), and a routine of the language answers a block as it is read
  (`Operation.routine_asRead`).
-/

namespace StagePlay

/-! ### Arguments -/

namespace Arguments

/-- The arguments that are taken as they are written. -/
def isVerbatim (name : String) : Bool := name = "message" || name = "actor"

/-- **Arguments that are read alike**: they have the same words and the same actor, and each other
name stands for the same number, or for none. The names themselves may differ, where one has an
argument of no use. -/
structure ReadAlike (as as' : Arguments) : Prop where
  verbatim : ∀ name, isVerbatim name = true → as.get? name = as'.get? name
  number : ∀ name, isVerbatim name = false →
    (as.get? name).bind Argument.number? = (as'.get? name).bind Argument.number?

theorem ReadAlike.refl (as : Arguments) : as.ReadAlike as := ⟨fun _ _ => rfl, fun _ _ => rfl⟩

/-- What is read of an argument: what is written, or a number. Where neither is the case the
argument is left out. -/
def reading? (name : String) (a : Argument) : Option Argument :=
  if isVerbatim name then some a else a.number?.map .number

/-- **The arguments as they are read.** They are still sorted by their names, as entries are only
changed in place or left out. -/
def asRead (as : Arguments) : Arguments where
  entries := as.entries.filterMap fun e => (reading? e.1 e.2).map fun a => (e.1, a)
  sorted := as.sorted.filterMap _ fun e e' hlt f hf f' hf' => by
    obtain ⟨a, -, rfl⟩ := Option.map_eq_some_iff.mp hf
    obtain ⟨a', -, rfl⟩ := Option.map_eq_some_iff.mp hf'
    exact hlt

/-- Behind a name there are only later ones, so it is not found there. -/
theorem lookup_eq_none_of_lt {name : String} {entries : List (String × Argument)}
    (h : ∀ e ∈ entries, name < e.1) : entries.lookup name = none := by
  refine List.lookup_eq_none_iff.mpr fun e he => bne_iff_ne.mpr fun heq => ?_
  have hlt := h e he
  rw [heq] at hlt
  exact String.lt_irrefl e.1 hlt

/-- What a name has after reading is what is read of what it had. That the names are sorted matters
here: an entry that is left out has no other one behind it to take its place. -/
theorem get?_asRead (as : Arguments) (name : String) :
    as.asRead.get? name = (as.get? name).bind (reading? name) := by
  obtain ⟨entries, hsorted⟩ := as
  unfold asRead get?
  dsimp only
  induction entries with
  | nil => rfl
  | cons e entries ih =>
    obtain ⟨hfirst, hrest⟩ := List.pairwise_cons.mp hsorted
    rw [List.filterMap_cons, List.lookup_cons]
    by_cases hname : name = e.1
    · subst hname
      rw [BEq.rfl]
      dsimp only [Option.bind_some]
      cases reading? e.1 e.2 with
      | some a => exact List.lookup_cons_self
      | none =>
        -- the entry is left out, and no later one has its name
        rw [Option.map_none, ih hrest, lookup_eq_none_of_lt hfirst]
        rfl
    -- another name, which is found or not among the rest
    · rw [beq_eq_false_iff_ne.mpr hname]
      dsimp only
      rw [← ih hrest]
      cases reading? e.1 e.2 with
      | none => rfl
      | some a =>
        rw [Option.map_some]
        dsimp only
        rw [List.lookup_cons, beq_eq_false_iff_ne.mpr hname]

/-- The entries of a name are what it has. -/
theorem mem_entries_iff (as : Arguments) (e : String × Argument) :
    e ∈ as.entries ↔ as.get? e.1 = some e.2 := by
  obtain ⟨entries, hsorted⟩ := as
  unfold get?
  dsimp only
  induction entries with
  | nil => exact iff_of_false List.not_mem_nil (fun h => nomatch h)
  | cons e' entries ih =>
    obtain ⟨hfirst, hrest⟩ := List.pairwise_cons.mp hsorted
    rw [List.mem_cons, ih hrest, List.lookup_cons]
    by_cases hname : e.1 = e'.1
    · rw [hname, BEq.rfl, lookup_eq_none_of_lt hfirst]
      dsimp only
      rw [or_iff_left (fun h => nomatch h), Option.some.injEq, eq_comm, Prod.ext_iff, ← hname]
      exact and_iff_right rfl
    · rw [beq_eq_false_iff_ne.mpr hname]
      exact or_iff_right fun heq => hname (congrArg Prod.fst heq)

/-- **Arguments are told by what each name has.** They are sorted lists without a name twice, so the
same entries stand in the same order. -/
theorem ext_get? {as as' : Arguments} (h : ∀ name, as.get? name = as'.get? name) : as = as' := by
  have hmem : ∀ e, e ∈ as.entries ↔ e ∈ as'.entries := fun e => by
    rw [mem_entries_iff, mem_entries_iff, h]
  have hnodup : ∀ bs : Arguments, bs.entries.Nodup := fun bs => bs.sorted.imp fun hlt heq => by
    rw [heq] at hlt
    exact String.lt_irrefl _ hlt
  -- both lists are sorted by their names, so the one order of the entries is the other
  have hperm : as.entries.Perm as'.entries :=
    (List.perm_ext_iff_of_nodup (hnodup as) (hnodup as')).mpr hmem
  have heq : as.entries = as'.entries := hperm.eq_of_pairwise
    (fun e e' _ _ hlt hlt' => absurd (String.lt_trans hlt hlt') (String.lt_irrefl _)) as.sorted as'.sorted
  obtain ⟨entries, hsorted⟩ := as
  obtain ⟨entries', hsorted'⟩ := as'
  obtain rfl : entries = entries' := heq
  rfl

/-- What a name has after an argument was given: the argument, if the name is its own. -/
theorem get?_insert (as : Arguments) (name : String) (a : Argument) (name' : String) :
    (as.insert name a).get? name' = if name' = name then some a else as.get? name' := by
  unfold insert get?
  dsimp only
  induction as.entries with
  | nil =>
    rw [putArgument, List.lookup_cons]
    by_cases hname : name' = name
    · rw [beq_iff_eq.mpr hname, if_pos hname]
    · rw [beq_eq_false_iff_ne.mpr hname, if_neg hname]
  | cons e entries ih =>
    obtain ⟨first, a'⟩ := e
    unfold putArgument
    -- each of the three ways of putting the argument in, for its own name and for others
    by_cases hname : name' = name
    · subst hname
      rw [if_pos rfl] at ih ⊢
      split
      · exact List.lookup_cons_self
      · split
        · exact List.lookup_cons_self
        · next hne => rw [List.lookup_cons, beq_eq_false_iff_ne.mpr hne, ih]
    · rw [if_neg hname] at ih ⊢
      have hskip : (name' == name) = false := beq_eq_false_iff_ne.mpr hname
      split
      · rw [List.lookup_cons, hskip]
      · split
        · next heq => rw [List.lookup_cons, List.lookup_cons, ← heq, hskip]
        · rw [List.lookup_cons, List.lookup_cons, ih]

/-- **A number may be given in any writing**: as a number, or as a text that spells it. Arguments
that were read alike are so afterwards. -/
theorem ReadAlike.insert {as as' : Arguments} (h : as.ReadAlike as') {name : String}
    (hname : isVerbatim name = false) {a a' : Argument} (ha : a.number? = a'.number?) :
    (as.insert name a).ReadAlike (as'.insert name a') where
  verbatim name' hname' := by
    have hne : name' ≠ name := fun heq => by rw [heq, hname] at hname'; cases hname'
    rw [get?_insert, get?_insert, if_neg hne, if_neg hne, h.verbatim name' hname']
  number name' hname' := by
    rw [get?_insert, get?_insert]
    split
    · exact ha
    · exact h.number name' hname'

/-- **What stands for no number** may as well be left out, if its name had nothing before. -/
theorem ReadAlike.insert_unusable {as as' : Arguments} (h : as.ReadAlike as') {name : String}
    (hname : isVerbatim name = false) (habsent : as.get? name = none) {a : Argument}
    (ha : a.number? = none) : as.ReadAlike (as'.insert name a) where
  verbatim name' hname' := by
    have hne : name' ≠ name := fun heq => by rw [heq, hname] at hname'; cases hname'
    rw [get?_insert, if_neg hne, h.verbatim name' hname']
  number name' hname' := by
    rw [get?_insert]
    split
    · next heq =>
      rw [heq, habsent]
      exact ha.symm
    · exact h.number name' hname'

theorem reading?_of_verbatim {name : String} (h : isVerbatim name = true) (a : Argument) :
    reading? name a = some a := if_pos h

/-- The number that an argument stands for is finite, so it stands for itself when it is written as
a number. -/
theorem number?_finite {a : Argument} {x : Float} (h : a.number? = some x) :
    (Argument.number x).number? = some x := by
  have hfinite : ∀ {y : Float}, Argument.finite? y = some x → Argument.finite? x = some x := by
    intro y hy
    unfold Argument.finite? at hy
    split at hy
    · next hfinite =>
      obtain rfl := Option.some.inj hy
      exact if_pos hfinite
    · exact nomatch hy
  cases a with
  | number y => exact hfinite h
  | text s =>
    obtain ⟨y, -, hy⟩ := Option.bind_eq_some_iff.mp h
    exact hfinite hy

/-- Reading keeps the number that an argument stands for. -/
theorem number?_reading? (name : String) (a : Argument) :
    (reading? name a).bind Argument.number? = a.number? := by
  unfold reading?
  split
  · rfl
  · cases hnumber : a.number? with
    | none => rfl
    | some x => exact number?_finite hnumber

/-- Each name stands for the same number as it is read. -/
theorem number?_asRead (as : Arguments) (name : String) :
    (as.asRead.get? name).bind Argument.number? = (as.get? name).bind Argument.number? := by
  rw [get?_asRead]
  cases as.get? name with
  | none => rfl
  | some a => exact number?_reading? name a

/-- What is taken as it is written is the same as it is read. -/
theorem get?_asRead_of_verbatim (as : Arguments) {name : String} (h : isVerbatim name = true) :
    as.asRead.get? name = as.get? name := by
  rw [get?_asRead]
  cases as.get? name with
  | none => rfl
  | some a => exact reading?_of_verbatim h a

/-- **Arguments are read alike exactly if they are equal as they are read.** So reading picks one
out of all the ways of writing the same arguments. -/
theorem readAlike_iff {as as' : Arguments} : as.ReadAlike as' ↔ as.asRead = as'.asRead := by
  constructor
  · intro h
    refine ext_get? fun name => ?_
    cases hname : isVerbatim name with
    | true =>
      rw [as.get?_asRead_of_verbatim hname, as'.get?_asRead_of_verbatim hname, h.verbatim name hname]
    | false =>
      have hreading : ∀ bs : Arguments, bs.asRead.get? name =
          ((bs.get? name).bind Argument.number?).map .number := by
        intro bs
        rw [get?_asRead]
        cases bs.get? name with
        | none => rfl
        | some a => exact if_neg (Bool.eq_false_iff.mp hname)
      rw [hreading, hreading, h.number name hname]
  · intro h
    constructor
    · intro name hname
      rw [← as.get?_asRead_of_verbatim hname, ← as'.get?_asRead_of_verbatim hname, h]
    · intro name _
      rw [← as.number?_asRead, ← as'.number?_asRead, h]

end Arguments

/-! ### Blocks -/

mutual

/-- **Blocks that are read alike**: they are equal but for how the numbers among their arguments are
written, and so are the blocks declared inside them. -/
inductive Block.ReadAlike : Block → Block → Prop where
  | intro {id : String} {operation : Operation} {arguments arguments' : Arguments}
      {children : List String} {next : Option String} {blocks blocks' : List Block}
      (harguments : arguments.ReadAlike arguments') (hblocks : BlocksReadAlike blocks blocks') :
      Block.ReadAlike ⟨id, operation, arguments, children, next, blocks⟩
        ⟨id, operation, arguments', children, next, blocks'⟩

/-- Lists of as many blocks, each of which is read like the other one in its place. -/
inductive BlocksReadAlike : List Block → List Block → Prop where
  | nil : BlocksReadAlike [] []
  | cons {b b' : Block} {bs bs' : List Block} (hblock : b.ReadAlike b')
      (hblocks : BlocksReadAlike bs bs') : BlocksReadAlike (b :: bs) (b' :: bs')

end

mutual

/-- **A block as it is read**, with all blocks that are declared inside it. -/
def Block.asRead : Block → Block
  | ⟨id, operation, arguments, children, next, blocks⟩ =>
    ⟨id, operation, arguments.asRead, children, next, blocksAsRead blocks⟩

/-- Blocks as they are read. -/
def blocksAsRead : List Block → List Block
  | [] => []
  | b :: bs => b.asRead :: blocksAsRead bs

end

theorem blocksAsRead_eq_map (bs : List Block) : blocksAsRead bs = bs.map Block.asRead := by
  induction bs with
  | nil => rw [blocksAsRead, List.map_nil]
  | cons b bs ih => rw [blocksAsRead, ih, List.map_cons]

mutual

theorem Block.ReadAlike.asRead_eq {b b' : Block} : b.ReadAlike b' → b.asRead = b'.asRead
  | .intro harguments hblocks => by
    rw [Block.asRead, Block.asRead, Arguments.readAlike_iff.mp harguments, hblocks.asRead_eq]

/-- Blocks that are read alike are equal as they are read, by induction on their nesting. -/
theorem BlocksReadAlike.asRead_eq {bs bs' : List Block} :
    BlocksReadAlike bs bs' → blocksAsRead bs = blocksAsRead bs'
  | .nil => rfl
  | .cons hblock hblocks => by
    rw [blocksAsRead, blocksAsRead, hblock.asRead_eq, hblocks.asRead_eq]

end

namespace Block

variable (b : Block)

theorem asRead_eq : b.asRead =
    { b with arguments := b.arguments.asRead, blocks := blocksAsRead b.blocks } := by
  obtain ⟨id, operation, arguments, children, next, blocks⟩ := b
  rw [asRead]

@[simp] theorem id_asRead : b.asRead.id = b.id := by rw [asRead_eq]

@[simp] theorem operation_asRead : b.asRead.operation = b.operation := by rw [asRead_eq]

@[simp] theorem arguments_asRead : b.asRead.arguments = b.arguments.asRead := by rw [asRead_eq]

@[simp] theorem children_asRead : b.asRead.children = b.children := by rw [asRead_eq]

@[simp] theorem next_asRead : b.asRead.next = b.next := by rw [asRead_eq]

@[simp] theorem number?_asRead (name : String) : b.asRead.number? name = b.number? name := by
  unfold number?
  rw [arguments_asRead, Arguments.number?_asRead]

theorem text?_asRead {name : String} (h : Arguments.isVerbatim name = true) :
    b.asRead.text? name = b.text? name := by
  unfold text?
  rw [arguments_asRead, Arguments.get?_asRead_of_verbatim _ h]

@[simp] theorem rounds_asRead : b.asRead.rounds = b.rounds := by
  unfold rounds
  rw [operation_asRead, number?_asRead]

end Block

/-- **A routine of the language** looks at the numbers and the words of its block, and at nothing
else that is written. So it answers the same for a block as it is read. -/
theorem Operation.routine_asRead {o : Operation} {r : Routine} (h : o.routine? = some r) (cue : Cue)
    (b : Block) : r cue b.asRead = r cue b := by
  have hmessage : Routine.message b.asRead = Routine.message b := by
    unfold Routine.message
    rw [b.text?_asRead rfl]
  -- each routine takes numbers and the message from its block, and they are the same
  cases o <;> simp only [routine?, Option.some.injEq, reduceCtorEq] at h <;> subst h <;>
    simp only [Routine.structural, Routine.wait, Routine.nudge, Routine.moveSteps, Routine.turn,
      Routine.gotoXY, Routine.say, Routine.think, Routine.present, Block.number?_asRead, hmessage]

/-! ### Programs -/

namespace Program

/-- **A program as it is read**: the declared blocks, and those that are found under the ids. -/
def asRead (p : Program) : Program where
  roots := blocksAsRead p.roots
  index := p.index.map fun entry => (entry.1, entry.2.asRead)

theorem find?_asRead (p : Program) (id : String) :
    p.asRead.find? id = (p.find? id).map Block.asRead := by
  unfold find? asRead
  dsimp only
  induction p.index with
  | nil => rfl
  | cons entry index ih =>
    rw [List.map_cons, List.lookup_cons, List.lookup_cons, ih]
    cases id == entry.1 <;> rfl

theorem starts_asRead (p : Program) : p.asRead.starts = p.starts.map Block.asRead := by
  unfold starts asRead
  dsimp only
  rw [blocksAsRead_eq_map, List.filter_map]
  simp only [Function.comp_def, Block.operation_asRead]

end Program

mutual

theorem Block.enter_asRead (index : List (String × Block)) :
    (b : Block) → b.asRead.enter (index.map fun entry => (entry.1, entry.2.asRead)) =
      (b.enter index).map fun entry => (entry.1, entry.2.asRead)
  | ⟨id, operation, arguments, children, next, blocks⟩ => by
    have hlookup : (index.map fun entry => (entry.1, entry.2.asRead)).lookup id =
        (index.lookup id).map Block.asRead := Program.find?_asRead ⟨[], index⟩ id
    have hempty : blocksAsRead [] = [] := by rw [blocksAsRead]
    rw [Block.asRead, Block.enter, Block.enter, hlookup, Option.isSome_map,
      ← enterBlocks_asRead _ blocks]
    split
    · rfl
    · rw [List.map_append, List.map_singleton, Block.asRead, hempty]

/-- The index of blocks as they are read is the index as it is read. Ids are not touched by reading,
so each block finds its id free just when it would have. -/
theorem enterBlocks_asRead (index : List (String × Block)) :
    (bs : List Block) → enterBlocks (index.map fun entry => (entry.1, entry.2.asRead)) (blocksAsRead bs) =
      (enterBlocks index bs).map fun entry => (entry.1, entry.2.asRead)
  | [] => by rw [blocksAsRead, enterBlocks, enterBlocks]
  | b :: bs => by
    rw [blocksAsRead, enterBlocks, enterBlocks, Block.enter_asRead index b,
      enterBlocks_asRead _ bs]

end

namespace Program

theorem asRead_ofBlocks (bs : List Block) : (ofBlocks bs).asRead = ofBlocks (blocksAsRead bs) :=
  congrArg (Program.mk (blocksAsRead bs)) (enterBlocks_asRead [] bs).symm

/-- **Programs of blocks that are read alike** are equal as they are read, index and all. -/
theorem asRead_congr {bs bs' : List Block} (h : BlocksReadAlike bs bs') :
    (ofBlocks bs).asRead = (ofBlocks bs').asRead := by
  rw [asRead_ofBlocks, asRead_ofBlocks, h.asRead_eq]

end Program

end StagePlay
