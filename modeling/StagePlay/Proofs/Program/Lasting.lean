import StagePlay.Program.Codec
import StagePlay.Proofs.Json.Record

/-!
# Programs last

What is read as a program is written so that the same program is read again.
-/

namespace StagePlay

open Json Number

/-! ### Arguments -/

/-- A name after all others goes to the end. Arguments are written in the order of their names, so
this is what happens to each of them when they are read again. -/
theorem putArgument_of_forall_lt {name : String} {a : Argument} {entries : List (String × Argument)}
    (h : ∀ e ∈ entries, e.1 < name) : putArgument name a entries = entries ++ [(name, a)] := by
  induction entries with
  | nil => rfl
  | cons e entries ih =>
    obtain ⟨first, others⟩ := List.forall_mem_cons.mp h
    have hlt : ¬ name < e.1 := fun hlt => String.lt_irrefl _ (String.lt_trans hlt first)
    have hne : name ≠ e.1 := fun heq => String.lt_irrefl _ (heq ▸ first)
    rw [putArgument, if_neg hlt, if_neg hne, ih others]
    rfl

/-- **An argument that is read lasts**: it is a text or a finite number. A text lasts in any case,
and a number if the reader finds it again, which is what `Lasts` relies on. -/
theorem Argument.lasts_of_decode {left left' : Nat} {node : Node} {a : Argument}
    (hnode : node.Finite) (h : Argument.decode left node = .ok a) :
    Lasts Argument.encode (Argument.decode left') a := by
  obtain ⟨value, hvalue, h⟩ := of_bind_eq_ok h
  have hcomplete := of_orFault_eq_ok hvalue
  cases node with
  | number n =>
    cases hcomplete
    cases h
    refine ⟨fun m hm => ?_, rfl⟩
    exact ⟨n.toFloat, List.mem_singleton.mp hm, hnode⟩
  | text s =>
    cases hcomplete
    cases h
    exact ⟨fun m hm => absurd hm List.not_mem_nil, rfl⟩
  -- an array or object is read to its end and then refused
  | array items fault =>
    cases left with
    | zero => cases hcomplete
    | succ left =>
      obtain ⟨values, -, hcomplete⟩ := of_bind_eq_ok hcomplete
      obtain ⟨-, -, hcomplete⟩ := of_bind_eq_ok hcomplete
      cases hcomplete
      cases h
  | object members fault =>
    cases left with
    | zero => cases hcomplete
    | succ left =>
      obtain ⟨values, -, hcomplete⟩ := of_bind_eq_ok hcomplete
      obtain ⟨-, -, hcomplete⟩ := of_bind_eq_ok hcomplete
      cases hcomplete
      cases h
  -- neither is anything else that is no text and no number
  | null => cases hcomplete; cases h
  | bool b => cases hcomplete; cases h
  | missing f => cases hcomplete
  | badScalar read skip => cases hcomplete
  | badText read skip => cases hcomplete

namespace Arguments

/-- Every argument of these lasts, at whatever depth it may come to stand. -/
def Last (as : Arguments) : Prop :=
  ∀ e ∈ as.entries, ∀ left, Lasts Argument.encode (Argument.decode left) e.2

theorem last_empty : empty.Last := by
  intro e he
  cases he

/-- Arguments still last when one more is put among them that does. It may take the place of an
earlier one of its name. -/
theorem Last.insert {as : Arguments} (has : as.Last) {name : String} {a : Argument}
    (ha : ∀ left, Lasts Argument.encode (Argument.decode left) a) : (as.insert name a).Last := by
  intro e he
  rcases mem_putArgument he with rfl | he
  · exact ha
  · exact has e he

/-- **Arguments that are read last.** They are read member by member, each put among those before
it. -/
theorem last_of_decode {left : Nat} {node : Node} {as : Arguments} (hnode : node.Finite)
    (h : Arguments.decode left node = .ok as) : as.Last := by
  -- on the members that are still to be read, for any arguments that were read before
  have hmembers (left : Nat) (fault : Option Fault) (members : List (Node × Node))
      (hfinite : ∀ m ∈ members, m.1.Finite ∧ m.2.Finite) :
      ∀ {as as'}, as.Last → decodeMembers left fault members as = .ok as' → as'.Last := by
    induction members with
    | nil =>
      intro as as' has h
      obtain ⟨-, -, hpure⟩ := of_bind_eq_ok h
      cases hpure
      exact has
    | cons m members ih =>
      intro as as' has h
      obtain ⟨⟨-, hvalue⟩, hothers⟩ := List.forall_mem_cons.mp hfinite
      obtain ⟨name, -, h⟩ := of_bind_eq_ok h
      obtain ⟨a, ha, h⟩ := of_bind_eq_ok h
      exact ih hothers (has.insert fun _ => Argument.lasts_of_decode hvalue ha) h
  cases node with
  | object members fault =>
    rw [decode] at h
    split at h
    · cases h
    · exact hmembers _ fault members (Node.finite_object.mp hnode) last_empty h
  | _ => exact absurd h mismatch_ne_ok

/-- What is written of arguments is read in their order, so each name goes to the end. -/
theorem decodeMembers_encode {left : Nat} {rest : List (String × Argument)} {found as : Arguments}
    (has : as.entries = found.entries ++ rest) (hlast : as.Last) :
    decodeMembers left none (nodesOfMembers (rest.map fun e => (e.1, e.2.encode))) found = .ok as := by
  induction rest generalizing found with
  | nil =>
    have : found = as := by
      cases found
      cases as
      simp_all
    rw [this]
    rfl
  | cons e rest ih =>
    have hsorted := as.sorted
    rw [has] at hsorted
    have hend : ∀ f ∈ found.entries, f.1 < e.1 := fun f hf =>
      (List.pairwise_append.mp hsorted).2.2 f hf e List.mem_cons_self
    have hinsert : as.entries = (found.insert e.1 e.2).entries ++ rest := by
      show as.entries = putArgument e.1 e.2 found.entries ++ rest
      rw [putArgument_of_forall_lt hend, List.append_assoc, has]
      rfl
    have he := (hlast e (by simp [has]) left).reread
    show (Argument.decode left (Node.ofValue e.2.encode) >>= _) = _
    rw [he]
    exact ih hinsert

/-- **Arguments last if each of them does**, one level deeper than they stand themselves. -/
theorem Last.lasts {as : Arguments} (h : as.Last) (left : Nat) :
    Lasts encode (decode (left + 1)) as where
  finite := by
    rw [encode, Value.finite_object, List.forall_mem_map]
    exact fun e he => (h e he 0).finite
  reread := decodeMembers_encode rfl h

end Arguments

/-! ### Operations -/

/-- An operation that is read stands for its tag. A custom kind with the name of a known one could
not be read as such. -/
theorem Operation.ofTag_tag_of_decode {node : Node} {o : Operation}
    (h : Operation.decode node = .ok o) : ofTag o.tag = o := by
  obtain ⟨s, -, h⟩ := of_bind_eq_ok h
  cases h
  rw [tag_ofTag]

/-! ### Blocks -/

mutual

/-- **How deep blocks are nested in a block**, itself counted. It is the number of levels that the
written form needs, up to a factor of two. -/
def Block.height : Block → Nat
  | ⟨_, _, _, _, _, blocks⟩ => heightOf blocks + 1

/-- How deep blocks are nested in some blocks. -/
def heightOf : List Block → Nat
  | [] => 0
  | b :: bs => max b.height (heightOf bs)

end

namespace Block

theorem height_eq (b : Block) : b.height = heightOf b.blocks + 1 := by
  obtain ⟨id, operation, arguments, children, next, blocks⟩ := b
  rw [height]

theorem heightOf_le_iff {bs : List Block} {n : Nat} : heightOf bs ≤ n ↔ ∀ b ∈ bs, b.height ≤ n := by
  induction bs with
  | nil => simp [heightOf]
  | cons b bs ih => rw [heightOf, Nat.max_le, List.forall_mem_cons, ih]

theorem le_heightOf {bs : List Block} {b : Block} (hb : b ∈ bs) : b.height ≤ heightOf bs :=
  heightOf_le_iff.mp (Nat.le_refl _) b hb

/-- One of some blocks is the one in which they are nested deepest, unless there are none. -/
theorem exists_height_eq {bs : List Block} (hbs : bs ≠ []) : ∃ b ∈ bs, b.height = heightOf bs := by
  induction bs with
  | nil => exact absurd rfl hbs
  | cons b bs ih =>
    rcases Nat.le_total (heightOf bs) b.height with hle | hle
    · exact ⟨b, List.mem_cons_self, by rw [heightOf, Nat.max_eq_left hle]⟩
    · -- the others are not fewer than none, since a block is one deep at least
      have hsome : bs ≠ [] := by
        rintro rfl
        rw [height_eq] at hle
        exact absurd hle (Nat.not_succ_le_zero _)
      obtain ⟨c, hc, hheight⟩ := ih hsome
      exact ⟨c, List.mem_cons_of_mem _ hc, by rw [heightOf, Nat.max_eq_right hle, hheight]⟩

/-- **A block that can be written**, with all blocks declared inside it: their operations stand for
their tags, and their arguments last. -/
inductive Sound : Block → Prop
  | intro {b : Block} (operation : Operation.ofTag b.operation.tag = b.operation)
    (arguments : b.arguments.Last) (blocks : ∀ c ∈ b.blocks, c.Sound) : b.Sound

/-- What is filled in of a block can be written, and `P` holds of the blocks declared inside it.
This is kept while the fields are read in any order. -/
structure Draft.Holds (P : Block → Prop) (d : Draft) : Prop where
  operation : ∀ o ∈ d.operation, Operation.ofTag o.tag = o
  arguments : ∀ as ∈ d.arguments, as.Last
  blocks : ∀ bs ∈ d.blocks, ∀ b ∈ bs, P b

/-- Each field keeps what holds of the blocks that are declared inside a block. There are six
fields, and each of them fills one part of the draft. -/
theorem shape_keeps {left : Nat} {nested : Node → Except Error Block} {P : Block → Prop}
    (hnested : ∀ node b, node.Finite → nested node = .ok b → P b) :
    (shape left nested).Keeps (Draft.Holds P) := by
  intro f hf node d d' hnode hd h
  simp only [shape, List.mem_cons, List.not_mem_nil, or_false] at hf
  rcases hf with rfl | rfl | rfl | rfl | rfl | rfl <;> obtain ⟨x, hx, h⟩ := of_bind_eq_ok h <;> cases h
  -- the id
  · exact ⟨hd.operation, hd.arguments, hd.blocks⟩
  -- the operation
  · refine ⟨?_, hd.arguments, hd.blocks⟩
    rintro o ⟨rfl⟩
    exact Operation.ofTag_tag_of_decode hx
  -- the arguments
  · refine ⟨hd.operation, ?_, hd.blocks⟩
    rintro as ⟨rfl⟩
    exact Arguments.last_of_decode hnode hx
  -- the children
  · exact ⟨hd.operation, hd.arguments, hd.blocks⟩
  -- the next block
  · exact ⟨hd.operation, hd.arguments, hd.blocks⟩
  -- the blocks declared inside it
  · refine ⟨hd.operation, hd.arguments, ?_⟩
    rintro bs ⟨rfl⟩
    exact decodeList_keeps hnested hnode hx

theorem encodeBlocks_eq_map (bs : List Block) : encodeBlocks bs = bs.map encode := by
  induction bs with
  | nil => rfl
  | cons b bs ih => rw [encodeBlocks, List.map_cons, ih]

/-- The members that a block is written with, in the order of their names. Lists that are empty and
a next block that there is not are left out; the parameters are written even when there are none. -/
def members (b : Block) : List (String × Value) :=
  memberOf "blocks" (listMember encode b.blocks) ++
    (memberOf "children" (listMember .text b.children) ++
      (("id", .text b.id) ::
        (memberOf "next" (b.next.map .text) ++
          [("operationKind", b.operation.encode), ("parameters", b.arguments.encode)])))

theorem encode_eq (b : Block) : b.encode = .object b.members := by
  obtain ⟨id, operation, arguments, children, next, blocks⟩ := b
  cases blocks with
  | nil => cases children <;> cases next <;> rfl
  | cons b bs =>
    have hblocks : listMember encode (b :: bs) = some (.array (encodeBlocks (b :: bs))) := by
      rw [encodeBlocks_eq_map]
      rfl
    rw [members, hblocks]
    cases children <;> cases next <;> rfl

/-- The block that is filled in when all members are read. What was not written is not filled in,
and is then what it is by default. -/
def full (b : Block) : Draft where
  id := some b.id
  operation := some b.operation
  arguments := some b.arguments
  children := unlessEmpty b.children
  next := b.next.map some
  blocks := unlessEmpty b.blocks

@[simp] theorem block_full (b : Block) : b.full.block = b := by
  obtain ⟨id, operation, arguments, children, next, blocks⟩ := b
  cases next <;> simp [full, Draft.block]

/-- What a block is written with, filled in member by member. -/
theorem decodeMembers_encode {left : Nat} {b : Block}
    (hoperation : Operation.ofTag b.operation.tag = b.operation) (harguments : b.arguments.Last)
    (hblocks : ∀ c ∈ b.blocks, Lasts encode (decode left) c) :
    (shape (left + 1) (decode left)).decodeMembers (nodesOfMembers b.members) {} = .ok b.full := by
  -- the members in the order in which they are written, each filled in behind those before it
  refine (Shape.decodeMembers_memberOf { blocks := unlessEmpty b.blocks } rfl rfl
    (fun h => by rw [unlessEmpty_of_listMember h]) fun v hv => ?_).trans ?_
  · obtain ⟨-, hread, hfull⟩ := Lasts.listMember left hblocks hv
    show (decodeList (decode left) (left + 1) (Node.ofValue v) >>= _) = _
    rw [hread, hfull]
    rfl
  refine (Shape.decodeMembers_memberOf
    { blocks := unlessEmpty b.blocks, children := unlessEmpty b.children } rfl rfl
    (fun h => by rw [unlessEmpty_of_listMember h]) fun v hv => ?_).trans ?_
  · obtain ⟨-, hread, hfull⟩ := Lasts.listMember left (fun s _ => lasts_text s) hv
    show (decodeList decodeText (left + 1) (Node.ofValue v) >>= _) = _
    rw [hread, hfull]
    rfl
  refine (Shape.decodeMembers_member
    { id := some b.id, blocks := unlessEmpty b.blocks, children := unlessEmpty b.children } rfl rfl
    rfl).trans ?_
  refine (Shape.decodeMembers_memberOf
    { id := some b.id, blocks := unlessEmpty b.blocks, children := unlessEmpty b.children,
      next := b.next.map some } rfl rfl
    (fun h => by rw [Option.map_eq_none_iff.mp h]; rfl) fun v hv => ?_).trans ?_
  · obtain ⟨s, hs, rfl⟩ := Option.map_eq_some_iff.mp hv
    rw [hs]
    rfl
  refine (Shape.decodeMembers_member
    { id := some b.id, blocks := unlessEmpty b.blocks, children := unlessEmpty b.children,
      next := b.next.map some, operation := some b.operation } rfl rfl ?_).trans ?_
  · show Except.ok _ = _
    rw [hoperation]
  exact (Shape.decodeMembers_put (fun as => { b.full with arguments := some as }) rfl rfl
    (harguments.lasts left).reread rfl).trans rfl

/-- **A block lasts** if what it holds does. Two levels are needed, one for the block and one for
the list of blocks or the arguments in it. -/
theorem lasts_of_last {left : Nat} {b : Block}
    (hoperation : Operation.ofTag b.operation.tag = b.operation) (harguments : b.arguments.Last)
    (hblocks : ∀ c ∈ b.blocks, Lasts encode (decode left) c) :
    Lasts encode (decode (left + 2)) b where
  finite := by
    have htext (s : String) : (Value.text s).Finite := (lasts_text s).finite
    rw [encode_eq, Value.finite_object]
    refine finite_memberOf (fun v hv => (Lasts.listMember left hblocks hv).1) ?_
    refine finite_memberOf (fun v hv => (Lasts.listMember left (fun s _ => lasts_text s) hv).1) ?_
    refine List.forall_mem_cons.mpr ⟨htext _, finite_memberOf (fun v hv => ?_) ?_⟩
    · obtain ⟨s, -, rfl⟩ := Option.map_eq_some_iff.mp hv
      exact htext s
    · exact List.forall_mem_cons.mpr ⟨htext _,
        List.forall_mem_singleton.mpr (harguments.lasts left).finite⟩
  reread := by
    have hrecord := Shape.decode_object (left + 1)
      (decodeMembers_encode hoperation harguments hblocks) rfl
    rw [encode_eq]
    refine (bind_of_eq_ok hrecord).trans ?_
    show Except.ok b.full.block = _
    rw [block_full]

/-- What is filled in of a block makes a block that can be written, if the blocks inside it can.
What is missing takes its default, and a default can be written as well. -/
theorem Draft.Holds.sound_block {P : Block → Prop} {d : Draft} (h : d.Holds P)
    (hsound : ∀ b, P b → b.Sound) : d.block.Sound := by
  refine .intro ?_ ?_ ?_
  · cases hd : d.operation with
    | none => simp only [block, hd]; rfl
    | some o => simpa [block, hd] using h.operation o hd
  · cases hd : d.arguments with
    | none => simpa [block, hd] using Arguments.last_empty
    | some as => simpa [block, hd] using h.arguments as hd
  · cases hd : d.blocks with
    | none => simp [block, hd]
    | some bs => simpa [block, hd] using fun b hb => hsound b (h.blocks bs hd b hb)

/-- What holds of the blocks that are filled in holds of those of the block. -/
theorem Draft.Holds.of_mem_blocks {P : Block → Prop} {d : Draft} (h : d.Holds P) :
    ∀ b ∈ d.block.blocks, P b := by
  cases hd : d.blocks with
  | none => simp [block, hd]
  | some bs => simpa [block, hd] using h.blocks bs hd

/-- Nothing is filled in at first. -/
theorem holds_blank {P : Block → Prop} : ({} : Draft).Holds P := ⟨by simp, by simp, by simp⟩

/-- **A block that is read can be written**, and there were levels enough for the blocks that are
nested in it: two for each, the last of which may have been left over. -/
theorem sound_of_decode {left : Nat} {node : Node} {b : Block} (hnode : node.Finite)
    (h : decode left node = .ok b) : b.Sound ∧ 2 * b.height ≤ left + 1 := by
  -- two levels at a time, as blocks are read
  induction left using Nat.strongRecOn generalizing node b with
  | _ left ih =>
  have hnone (node : Node) (b : Block) (_ : node.Finite) (h : (malformed : Except Error Block) = .ok b) :
      False := nomatch h
  match left, h with
  | 0, h =>
    -- no level for the block itself
    obtain ⟨d, hd, -⟩ := of_bind_eq_ok h
    cases node with
    | array items fault => cases hd
    | object members fault => cases hd
    | _ => exact absurd hd mismatch_ne_ok
  | 1, h =>
    -- a level for the block, and none for blocks inside it
    obtain ⟨d, hd, hblock⟩ := of_bind_eq_ok h
    cases hblock
    have hholds : d.Holds fun _ => False :=
      Shape.decode_keeps (shape_keeps hnone) holds_blank hnode hd
    have hempty : d.block.blocks = [] := List.eq_nil_iff_forall_not_mem.mpr hholds.of_mem_blocks
    refine ⟨hholds.sound_block fun _ => False.elim, ?_⟩
    rw [height_eq, hempty]
    exact Nat.le_refl 2
  | left + 2, h =>
    -- the blocks inside it are read with two levels less
    obtain ⟨d, hd, hblock⟩ := of_bind_eq_ok h
    cases hblock
    have hholds : d.Holds fun c => c.Sound ∧ 2 * c.height ≤ left + 1 :=
      Shape.decode_keeps (shape_keeps fun _ _ => ih left (by omega)) holds_blank hnode hd
    refine ⟨hholds.sound_block fun _ => And.left, ?_⟩
    have hhighest : heightOf d.block.blocks ≤ (left + 1) / 2 :=
      heightOf_le_iff.mpr fun c hc => by
        have := (hholds.of_mem_blocks c hc).2
        omega
    rw [height_eq]
    omega

/-- **A block that can be written lasts** where there are two levels for each of the blocks that are
nested in it, one for itself and one for the blocks or arguments inside it. -/
theorem Sound.lasts {b : Block} (h : b.Sound) {left : Nat} (hleft : 2 * b.height ≤ left) :
    Lasts encode (decode left) b := by
  induction h generalizing left with
  | @intro b operation arguments blocks ih =>
    rw [height_eq] at hleft
    obtain ⟨l, rfl⟩ : ∃ l, left = l + 2 := ⟨left - 2, by omega⟩
    refine lasts_of_last operation arguments fun c hc => ih c hc ?_
    have := le_heightOf hc
    omega

/-- **A block that is read lasts** if an even number of levels is left: the level that may have been
left over is not there then. -/
theorem lasts_of_decode (k : Nat) {node : Node} {b : Block} (hnode : node.Finite)
    (h : decode (2 * k) node = .ok b) : Lasts encode (decode (2 * k)) b := by
  obtain ⟨hsound, hheight⟩ := sound_of_decode hnode h
  exact hsound.lasts (by omega)

end Block

/-! ### Programs -/

namespace Program

/-- A program is written with the blocks that it was declared with. -/
theorem encode_ofBlocks (roots : List Block) :
    encode (ofBlocks roots) = .object [("blocks", .array (roots.map Block.encode))] := by
  rw [encode, Block.encodeBlocks_eq_map]
  rfl

/-- What is written of blocks that can be written holds finite numbers only. -/
theorem finite_encode {p : Program} (hroots : ∀ b ∈ p.roots, b.Sound) : p.encode.Finite := by
  rw [encode, Block.encodeBlocks_eq_map, Value.finite_object]
  refine List.forall_mem_singleton.mpr (Value.finite_array.mpr (List.forall_mem_map.mpr ?_))
  exact fun b hb => ((hroots b hb).lasts (Nat.le_refl _)).finite

/-- **A program lasts** if its blocks do, and if each is found by the id it is declared with. The
index is not written, and is made again from the blocks that are read. -/
theorem lasts_ofBlocks (left : Nat) {roots : List Block}
    (hroots : ∀ b ∈ roots, Lasts Block.encode (Block.decode left) b) :
    Lasts encode (decode (left + 2)) (ofBlocks roots) := by
  have hlist := Lasts.list left hroots
  constructor
  · rw [encode_ofBlocks, Value.finite_object]
    exact List.forall_mem_singleton.mpr hlist.finite
  · have hmembers : (shape (left + 1)).decodeMembers
        (nodesOfMembers [("blocks", .array (roots.map Block.encode))]) {} =
        .ok { blocks := some roots } :=
      (Shape.decodeMembers_put (fun bs => { blocks := some bs }) rfl rfl hlist.reread rfl).trans rfl
    rw [encode_ofBlocks]
    exact (bind_of_eq_ok (Shape.decode_object (left + 1) hmembers rfl)).trans rfl

/-- **What is read as a program** is the program of some blocks that were read, each of which can be
written. -/
theorem of_decode {left : Nat} {node : Node} {p : Program} (hnode : node.Finite)
    (h : decode (left + 2) node = .ok p) :
    p = ofBlocks p.roots ∧ ∀ b ∈ p.roots, b.Sound ∧ 2 * b.height ≤ left + 1 := by
  obtain ⟨d, hd, hp⟩ := of_bind_eq_ok h
  cases hp
  have hblocks : ∀ bs ∈ d.blocks, ∀ b ∈ bs, b.Sound ∧ 2 * b.height ≤ left + 1 := by
    refine Shape.decode_keeps (P := fun d => ∀ bs ∈ d.blocks, ∀ b ∈ bs,
      b.Sound ∧ 2 * b.height ≤ left + 1) ?_ (by simp [shape]) hnode hd
    intro f hf node d d' hnode hd h
    obtain rfl := List.mem_singleton.mp hf
    obtain ⟨bs, hbs, h⟩ := of_bind_eq_ok h
    cases h
    rintro bs ⟨rfl⟩
    exact decodeList_keeps (fun _ _ => Block.sound_of_decode) hnode hbs
  refine ⟨rfl, ?_⟩
  show ∀ b ∈ d.blocks.getD [], _
  cases hd : d.blocks with
  | none => simp
  | some bs => exact hblocks bs hd

/-- **A program that is read lasts** if an even number of levels is left below its own. This is the
case within a project and for a program by itself. -/
theorem lasts_of_decode (k : Nat) {node : Node} {p : Program} (hnode : node.Finite)
    (h : decode (2 * k + 2) node = .ok p) : Lasts encode (decode (2 * k + 2)) p := by
  obtain ⟨hp, hroots⟩ := of_decode hnode h
  rw [hp]
  refine lasts_ofBlocks (2 * k) fun b hb => ?_
  obtain ⟨hsound, hheight⟩ := hroots b hb
  exact hsound.lasts (by omega)

end Program

end StagePlay
