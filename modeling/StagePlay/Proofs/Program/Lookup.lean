import Mathlib.Data.Finset.Card
import StagePlay.Proofs.Program.Nesting

/-!
# What a program finds

The index of a program is filled while its blocks are walked through, those inside a block before
those after it. What it holds in the end can be said without that walk:

* `listedBlocks` — all blocks in the order in which they are declared, a block before those inside it;
* `Program.lookup_declared` — an id finds the first block of that list that has it, and is unknown if
  no block has it; there are as many entries as different ids; the start blocks are those at the top,
  whatever the index holds for their ids.

What is proved about the walk is proved about a plain list first (`lookup_enterBlocks`,
`nodup_enterBlocks`): by `enterBlocks_flatten` the walk comes to the same.
-/

namespace StagePlay

mutual

/-- A block and those inside it, in the order of their declaration, each with all that it holds. -/
def Block.listed : Block → List Block
  | ⟨id, operation, arguments, children, next, blocks⟩ =>
    ⟨id, operation, arguments, children, next, blocks⟩ :: listedBlocks blocks

/-- **All blocks in the order of their declaration**: a block, those inside it, and then the next
one. This order decides which of several blocks an id finds. -/
def listedBlocks : List Block → List Block
  | [] => []
  | b :: bs => b.listed ++ listedBlocks bs

end

mutual

theorem Block.flatten_eq_map : (b : Block) → b.flatten = b.listed.map Block.shallow
  | ⟨id, operation, arguments, children, next, blocks⟩ => by
    rw [Block.flatten, Block.listed, List.map_cons, flattenBlocks_eq_map blocks]
    rfl

/-- The flat list is the list of the declared blocks, each without those inside it. -/
theorem flattenBlocks_eq_map :
    (bs : List Block) → flattenBlocks bs = (listedBlocks bs).map Block.shallow
  | [] => by rw [flattenBlocks, listedBlocks, List.map_nil]
  | b :: bs => by
    rw [flattenBlocks, listedBlocks, List.map_append, b.flatten_eq_map, flattenBlocks_eq_map bs]

end

mutual

theorem Block.mem_listed (d : Block) : (b : Block) → (d ∈ b.listed ↔ d = b ∨ d.Inside b)
  | ⟨id, operation, arguments, children, next, blocks⟩ => by
    rw [Block.listed, List.mem_cons, mem_listedBlocks d blocks, Block.inside_iff]

/-- **What the list of declared blocks holds**: the blocks at the top and those inside them, at any
depth. -/
theorem mem_listedBlocks (d : Block) :
    (bs : List Block) → (d ∈ listedBlocks bs ↔ ∃ b ∈ bs, d = b ∨ d.Inside b)
  | [] => by simp [listedBlocks]
  | b :: bs => by
    rw [listedBlocks, List.mem_append, Block.mem_listed d b, mem_listedBlocks d bs]
    simp only [List.mem_cons, exists_eq_or_imp]

end

/-! ### Entering a plain list -/

/-- **An id keeps what it has, and takes the first block of the list otherwise.** By induction on
the list: a block either is the first with its id, or finds the id taken. -/
theorem lookup_enterBlocks (index : List (String × Block)) (bs : List Block) (id : String) :
    (enterBlocks index (bs.map Block.shallow)).lookup id =
      (index.lookup id).or ((bs.find? fun b => b.id = id).map Block.shallow) := by
  induction bs generalizing index with
  | nil => rw [List.map_nil, enterBlocks, List.find?_nil, Option.map_none, Option.or_none]
  | cons b bs ih =>
    rw [List.map_cons, enterBlocks, ih, b.enter_shallow, List.find?_cons]
    by_cases hid : b.id = id
    · -- the block takes its id, unless the index has it already
      rw [decide_eq_true hid, ← hid]
      cases hlookup : index.lookup b.id with
      | some c => rw [if_pos (Option.isSome_some), hlookup, Option.some_or, Option.some_or]
      | none =>
        have hself : List.lookup b.id [(b.id, b.shallow)] = some b.shallow := List.lookup_cons_self
        have hfree : ¬(none : Option Block).isSome := Bool.false_ne_true
        rw [if_neg hfree, List.lookup_append, hlookup, hself, Option.none_or, Option.some_or,
          Option.none_or, Option.map_some]
    -- another id: whether or not the block is entered, this one finds what it found
    · have hother : List.lookup id [(b.id, b.shallow)] = none := by
        rw [List.lookup_cons, beq_eq_false_iff_ne.mpr (Ne.symm hid)]
        rfl
      rw [decide_eq_false hid]
      split
      · rfl
      · rw [List.lookup_append, hother, Option.or_none]

/-- No id is entered twice, since a block is only entered where its id is free. -/
theorem nodup_enterBlocks {index : List (String × Block)} (h : (index.map Prod.fst).Nodup)
    (bs : List Block) : ((enterBlocks index (bs.map Block.shallow)).map Prod.fst).Nodup := by
  induction bs generalizing index with
  | nil =>
    rw [List.map_nil, enterBlocks]
    exact h
  | cons b bs ih =>
    rw [List.map_cons, enterBlocks]
    refine ih ?_
    rw [b.enter_shallow]
    split
    case isTrue => exact h
    case isFalse hfree =>
      -- the id is free, so it is not among the entries
      have hnew : b.id ∉ index.map Prod.fst := by
        rintro hmem
        obtain ⟨⟨_, c⟩, hc, rfl⟩ := List.mem_map.mp hmem
        exact hfree (List.lookup_isSome_iff.mpr ⟨_, hc, BEq.rfl⟩)
      rw [List.map_append]
      exact h.append (List.nodup_singleton _) (List.disjoint_singleton.mpr hnew)

namespace Program

variable (bs : List Block)

/-! ### The program -/

theorem index_eq :
    (ofBlocks bs).index = enterBlocks [] ((listedBlocks bs).map Block.shallow) := by
  rw [← flattenBlocks_eq_map, enterBlocks_flatten]
  rfl

/-- What an id finds is the first block that has it, in the order of declaration, without those
inside it. -/
theorem find?_declared (id : String) :
    (ofBlocks bs).find? id = ((listedBlocks bs).find? fun b => b.id = id).map Block.shallow := by
  rw [find?, index_eq, lookup_enterBlocks, List.lookup_nil, Option.none_or]

/-- An id is unknown if no block has it, neither at the top nor inside another one. -/
theorem find?_eq_none_iff (id : String) :
    (ofBlocks bs).find? id = none ↔ ∀ b ∈ bs, b.id ≠ id ∧ ∀ d : Block, d.Inside b → d.id ≠ id := by
  rw [find?_declared, Option.map_eq_none_iff, List.find?_eq_none]
  simp only [decide_eq_true_eq, mem_listedBlocks]
  constructor
  · intro h b hb
    exact ⟨h b ⟨b, hb, .inl rfl⟩, fun d hd => h d ⟨b, hb, .inr hd⟩⟩
  · rintro h d ⟨b, hb, rfl | hd⟩
    · exact (h d hb).1
    · exact (h b hb).2 d hd

/-- There are as many entries as different ids: every id that a block has is entered, and none
twice. -/
theorem size_declared : (ofBlocks bs).size = ((listedBlocks bs).map Block.id).toFinset.card := by
  -- the index has the ids of all blocks, and none of them twice
  have hkeys : ((ofBlocks bs).index.map Prod.fst).toFinset =
      ((listedBlocks bs).map Block.id).toFinset := by
    ext id
    have hfound : id ∈ (ofBlocks bs).index.map Prod.fst ↔ ((ofBlocks bs).find? id).isSome := by
      rw [find?, List.lookup_isSome_iff, List.mem_map]
      simp only [beq_iff_eq, eq_comm (a := id)]
    rw [List.mem_toFinset, List.mem_toFinset, hfound, find?_declared, Option.isSome_map,
      List.find?_isSome, List.mem_map]
    simp only [decide_eq_true_eq]
  have hnodup : ((ofBlocks bs).index.map Prod.fst).Nodup := by
    rw [index_eq]
    have hempty : (([] : List (String × Block)).map Prod.fst).Nodup := List.nodup_nil
    exact nodup_enterBlocks hempty _
  rw [← hkeys, List.toFinset_card_of_nodup hnodup, List.length_map, size]

/-- **What a program finds**, for any blocks and however they are nested or share their ids:

* an id finds the first block that has it, in the order of their declaration, without those inside
  it, and is unknown exactly if no block has it, at the top or inside another one;
* there are as many entries as different ids;
* after a block comes what its `next` finds;
* the start blocks are the blocks at the top that are declared so, in their order and with all they
  hold, even one whose id finds an earlier block. -/
theorem lookup_declared :
    (∀ id, (ofBlocks bs).find? id =
      ((listedBlocks bs).find? fun b => b.id = id).map Block.shallow) ∧
    (∀ id, (ofBlocks bs).find? id = none ↔
      ∀ b ∈ bs, b.id ≠ id ∧ ∀ d : Block, d.Inside b → d.id ≠ id) ∧
    (ofBlocks bs).size = ((listedBlocks bs).map Block.id).toFinset.card ∧
    (∀ b : Block, (ofBlocks bs).next? b = b.next.bind (ofBlocks bs).find?) ∧
    (ofBlocks bs).starts = bs.filter fun b => b.operation = .start :=
  ⟨find?_declared bs, find?_eq_none_iff bs, size_declared bs, fun _ => rfl, rfl⟩

/-- A start block whose id belongs to a block inside an earlier one starts its own chain. -/
example :
    let inner : Block := ⟨"x", .show, .empty, [], none, []⟩
    let p := ofBlocks [⟨"loop", .repeatForever, .empty, ["x"], none, [inner]⟩,
      ⟨"x", .start, .empty, [], some "loop", []⟩]
    p.starts.map Block.next = [some "loop"] ∧ (p.find? "x").map Block.next = some none ∧
      p.size = 2 := by decide

end Program

end StagePlay
