import StagePlay.Program.Basic

/-!
# Nested blocks

Blocks may be declared inside other blocks. This says no more than writing all of them down one after
the other, a block before the blocks declared inside it: `flattenBlocks` is the list that comes of it,
and `enterBlocks_flatten` says that entering it makes the same index.

What differs is the top, where a chain can start. Where no inner block is a start block, the two have
the same start blocks, up to what is declared inside of them (`starts_flatten`).
-/

namespace StagePlay

/-- **A block that is declared inside another one**, at any depth. -/
inductive Block.Inside : Block → Block → Prop where
  | declared {c b : Block} : c ∈ b.blocks → Inside c b
  | deeper {d c b : Block} : c ∈ b.blocks → Inside d c → Inside d b

mutual

/-- A block and those inside it, in order, each without those inside it. The block comes first, so
that its id is taken before theirs. -/
def Block.flatten : Block → List Block
  | ⟨id, operation, arguments, children, next, blocks⟩ =>
    ⟨id, operation, arguments, children, next, []⟩ :: flattenBlocks blocks

/-- **All blocks one after the other**, wherever they are declared: a block, and then the blocks
inside it. -/
def flattenBlocks : List Block → List Block
  | [] => []
  | b :: bs => b.flatten ++ flattenBlocks bs

end

/-- What is inside a block is one of its own blocks, or inside one of these. -/
theorem Block.inside_iff {d b : Block} : d.Inside b ↔ ∃ c ∈ b.blocks, d = c ∨ d.Inside c := by
  constructor
  · rintro (hd | ⟨hc, hd⟩)
    · exact ⟨d, hd, .inl rfl⟩
    · exact ⟨_, hc, .inr hd⟩
  · rintro ⟨c, hc, rfl | hd⟩
    · exact .declared hc
    · exact .deeper hc hd

/-! ### The index -/

/-- A block without blocks inside it takes its id, if nobody has it, and changes nothing otherwise.
-/
theorem Block.enter_shallow (index : List (String × Block)) (b : Block) :
    b.shallow.enter index =
      if (index.lookup b.id).isSome then index else index ++ [(b.id, b.shallow)] := by
  obtain ⟨id, operation, arguments, children, next, blocks⟩ := b
  rw [shallow, enter, enterBlocks]

/-- Entering a block is entering it alone, and then the blocks inside it. So entering is a walk in
the order of declaration. -/
theorem Block.enter_eq (index : List (String × Block)) (b : Block) :
    b.enter index = enterBlocks (b.shallow.enter index) b.blocks := by
  rw [b.enter_shallow]
  obtain ⟨id, operation, arguments, children, next, blocks⟩ := b
  rw [enter]
  rfl

theorem enterBlocks_append (index : List (String × Block)) (bs bs' : List Block) :
    enterBlocks index (bs ++ bs') = enterBlocks (enterBlocks index bs) bs' := by
  induction bs generalizing index with
  | nil => rw [List.nil_append, enterBlocks]
  | cons b bs ih => rw [List.cons_append, enterBlocks, enterBlocks, ih]

mutual

theorem Block.enterBlocks_flatten (index : List (String × Block)) :
    (b : Block) → enterBlocks index b.flatten = b.enter index
  | ⟨_, _, _, _, _, blocks⟩ => by
    rw [Block.flatten, enterBlocks, enterBlocks_flatten _ blocks, Block.enter_eq]
    rfl

/-- **Nesting makes no difference to the index**: a list of blocks and the flat list of all that
they hold are entered alike. The induction is on the nesting, block by block. -/
theorem enterBlocks_flatten (index : List (String × Block)) :
    (bs : List Block) → enterBlocks index (flattenBlocks bs) = enterBlocks index bs
  | [] => by rw [flattenBlocks]
  | b :: bs => by
    rw [flattenBlocks, enterBlocks_append, b.enterBlocks_flatten, enterBlocks_flatten _ bs,
      enterBlocks]

end

mutual

/-- Entering a block enters blocks without others inside them, if the index had no others before. -/
theorem Block.shallow_of_mem_enter {index : List (String × Block)}
    (hindex : ∀ entry ∈ index, entry.2.shallow = entry.2) :
    (b : Block) → ∀ entry ∈ b.enter index, entry.2.shallow = entry.2
  | ⟨id, operation, arguments, children, next, blocks⟩ => by
    rw [Block.enter_eq, Block.enter_shallow]
    refine shallow_of_mem_enterBlocks ?_ blocks
    split
    · exact hindex
    · rintro entry hentry
      rcases List.mem_append.mp hentry with hentry | hentry
      · exact hindex entry hentry
      · rw [List.mem_singleton.mp hentry]
        rfl

theorem shallow_of_mem_enterBlocks {index : List (String × Block)}
    (hindex : ∀ entry ∈ index, entry.2.shallow = entry.2) :
    (bs : List Block) → ∀ entry ∈ enterBlocks index bs, entry.2.shallow = entry.2
  | [] => by
    rw [enterBlocks]
    exact hindex
  | b :: bs => by
    rw [enterBlocks]
    exact shallow_of_mem_enterBlocks (b.shallow_of_mem_enter hindex) bs

end

/-! ### The blocks -/

mutual

theorem Block.mem_flatten (c : Block) :
    (b : Block) → (c ∈ b.flatten ↔ ∃ d : Block, (d = b ∨ d.Inside b) ∧ c = d.shallow)
  | ⟨id, operation, arguments, children, next, blocks⟩ => by
    rw [Block.flatten, List.mem_cons, mem_flattenBlocks c blocks]
    -- the block itself, or what is inside one of its own blocks
    constructor
    · rintro (rfl | ⟨b, hb, d, hd, rfl⟩)
      · exact ⟨_, .inl rfl, rfl⟩
      · exact ⟨d, .inr (Block.inside_iff.mpr ⟨b, hb, hd⟩), rfl⟩
    · rintro ⟨d, rfl | hd, rfl⟩
      · exact .inl rfl
      · obtain ⟨b, hb, hd⟩ := Block.inside_iff.mp hd
        exact .inr ⟨b, hb, d, hd, rfl⟩

/-- **What the flat list holds**: each block, at the top or inside another one, without those inside
it. -/
theorem mem_flattenBlocks (c : Block) :
    (bs : List Block) →
      (c ∈ flattenBlocks bs ↔ ∃ b ∈ bs, ∃ d : Block, (d = b ∨ d.Inside b) ∧ c = d.shallow)
  | [] => by simp [flattenBlocks]
  | b :: bs => by
    rw [flattenBlocks, List.mem_append, Block.mem_flatten c b, mem_flattenBlocks c bs]
    simp only [List.mem_cons, exists_eq_or_imp]

end

namespace Program

/-- A block that is found comes without those inside it; they have ids of their own to be found
under. -/
theorem shallow_of_find? {bs : List Block} {id : String} {b : Block}
    (h : (ofBlocks bs).find? id = some b) : b.shallow = b := by
  obtain ⟨l, l', hindex, -⟩ := List.lookup_eq_some_iff.mp h
  have hmem : (id, b) ∈ (ofBlocks bs).index := by
    rw [hindex]
    exact List.mem_append_right l List.mem_cons_self
  exact shallow_of_mem_enterBlocks (fun _ h => absurd h List.not_mem_nil) bs (id, b) hmem

/-- **Nesting makes no difference to what is found**, whichever ids the blocks share. -/
theorem index_flatten (bs : List Block) :
    (ofBlocks (flattenBlocks bs)).index = (ofBlocks bs).index := enterBlocks_flatten [] bs

/-- **The start blocks are those at the top**, where none is declared inside another block.
Flattening brings inner blocks to the top, so one that were a start block would start a chain there.
-/
theorem starts_flatten {bs : List Block}
    (hinner : ∀ b ∈ bs, ∀ d : Block, d.Inside b → d.operation ≠ .start) :
    (ofBlocks (flattenBlocks bs)).starts = (ofBlocks bs).starts.map Block.shallow := by
  change (flattenBlocks bs).filter _ = (bs.filter _).map Block.shallow
  induction bs with
  | nil => rfl
  | cons b bs ih =>
    have hrest := ih fun b' hb' => hinner b' (List.mem_cons_of_mem _ hb')
    -- of what the block is flattened to, only the block itself can be a start block
    have hnone : (flattenBlocks b.blocks).filter (fun b => b.operation = .start) = [] := by
      refine List.filter_eq_nil_iff.mpr fun c hc => ?_
      obtain ⟨c', hc', d, hd, rfl⟩ := (mem_flattenBlocks c _).mp hc
      have hstart := hinner b List.mem_cons_self d (Block.inside_iff.mpr ⟨c', hc', hd⟩)
      rw [decide_eq_true_eq]
      exact hstart
    have hflat : b.flatten = b.shallow :: flattenBlocks b.blocks := by
      obtain ⟨id, operation, arguments, children, next, blocks⟩ := b
      rw [Block.flatten]
      rfl
    rw [flattenBlocks, hflat, List.filter_append, List.filter_cons, hnone, hrest, List.filter_cons]
    have hsame : b.shallow.operation = b.operation := rfl
    rw [hsame]
    split <;> rfl

end Program

end StagePlay
