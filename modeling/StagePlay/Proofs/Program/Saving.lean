import StagePlay.Proofs.Program.Lasting

/-!
# Saved programs

A program that was loaded from a text of its own is written as a text from which the same program is
loaded again, as long as its blocks are not nested as deep as they can be. A block is always written
with its arguments, also where it has none, and the object that holds them is one level deeper than
the block. The innermost block of a text may stand on the last level that there is, and then it is
written as a text that goes one level too far.

So the arguments are what matters, and by how many levels is known: a block takes two of them for
itself and what is inside it (`Block.Sound.lasts`), and where there are fewer the text is refused
(`Block.Sound.refused`). In a program that stands alone the number of levels that are left for its
blocks is odd, so that the innermost one can be left with a single level; inside a project it is even.

* `Program.read_again` — the result.
* `Program.deepest_lost` — a program that is lost by saving it.
-/

namespace StagePlay

open Json Number

/-! ### Too deep -/

/-- **A list is refused** where one of its items is, if nothing else can happen to an item. Without
this condition an earlier item might be refused for another reason, and that error would be the one
that is given. -/
theorem Json.decodeList_refused {α : Type} {encode : α → Value} {decode : Node → Except Error α}
    {as : List α} (left : Nat)
    (hitems : ∀ a ∈ as, decode (.ofValue (encode a)) = .ok a ∨
      decode (.ofValue (encode a)) = malformed)
    (hrefused : ∃ a ∈ as, decode (.ofValue (encode a)) = malformed) :
    decodeList decode left (.ofValue (.array (as.map encode))) = malformed := by
  cases left with
  | zero => rfl
  | succ left =>
    show decodeItems decode none (nodesOfValues (as.map encode)) = malformed
    induction as with
    | nil =>
      obtain ⟨a, ha, -⟩ := hrefused
      cases ha
    | cons a as ih =>
      obtain ⟨ha, has⟩ := List.forall_mem_cons.mp hitems
      rw [List.map_cons, nodesOfValues, decodeItems]
      rcases ha with hread | hrefusedHere
      · -- the item is read, so it is one of the others that is refused
        rw [hread]
        have hothers : ∃ b ∈ as, decode (.ofValue (encode b)) = malformed := by
          obtain ⟨b, hb, hbad⟩ := hrefused
          rcases List.mem_cons.mp hb with rfl | hb
          · rw [hread] at hbad
            cases hbad
          · exact ⟨b, hb, hbad⟩
        show (decodeItems decode none _ >>= _) = _
        rw [ih has hothers]
        rfl
      -- this is the item, and those behind it are not looked at
      · rw [hrefusedHere]
        rfl

namespace Block

/-- A block that holds no blocks needs a second level for its arguments, since these are written
even when there are none. This is where the last level goes missing. -/
theorem refused_of_flat {b : Block} (hflat : b.blocks = []) {left : Nat} (hleft : left < 2) :
    decode left (.ofValue b.encode) = malformed := by
  obtain ⟨id, operation, arguments, children, next, blocks⟩ := b
  obtain rfl : blocks = [] := hflat
  obtain rfl | rfl : left = 0 ∨ left = 1 := by omega
  · rfl
  · cases children <;> cases next <;> rfl

/-- What is written first of a block that holds others are these. So if their list is refused, the
block is refused with the same error. -/
theorem refused_of_blocks {b : Block} {left : Nat} {nested : Node → Except Error Block}
    (hsome : b.blocks ≠ [])
    (h : decodeList nested left (.ofValue (.array (b.blocks.map encode))) = malformed) :
    (shape left nested).decode (left + 1) (.ofValue b.encode) = malformed := by
  obtain ⟨c, cs, hblocks⟩ := List.exists_cons_of_ne_nil hsome
  have hmember : listMember encode b.blocks = some (.array (b.blocks.map encode)) := by
    rw [hblocks]
    rfl
  have hread : (shape left nested).decodeMembers (nodesOfMembers b.members) {} = malformed := by
    rw [members, hmember]
    show (decodeList nested left _ >>= _) >>= _ = _
    rw [h]
    rfl
  rw [encode_eq]
  show ((shape left nested).decodeMembers (nodesOfMembers b.members) {} >>= _) = _
  rw [hread]
  rfl

/-- A list of blocks is refused with the highest one of them. A lower one is read or refused, as its
own height tells, and the error is the same for all of them. -/
theorem refused_of_height {bs : List Block} (hsome : bs ≠ []) {left : Nat}
    (hsound : ∀ b ∈ bs, b.Sound)
    (hrefused : ∀ b ∈ bs, left < 2 * b.height → decode left (.ofValue b.encode) = malformed)
    (hleft : left < 2 * heightOf bs) :
    decodeList (decode left) (left + 1) (.ofValue (.array (bs.map encode))) = malformed := by
  refine decodeList_refused (left + 1) (fun b hb => ?_) ?_
  · rcases Nat.lt_or_ge left (2 * b.height) with hlow | hhigh
    · exact .inr (hrefused b hb hlow)
    · exact .inl ((hsound b hb).lasts hhigh).reread
  · obtain ⟨b, hb, hhighest⟩ := exists_height_eq hsome
    exact ⟨b, hb, hrefused b hb (by rwa [hhighest])⟩

/-- **A block is refused** where there are not two levels for each of the blocks nested in it. The
induction is on the nesting: with every block outwards, two levels less are left for those inside.
-/
theorem Sound.refused {b : Block} (h : b.Sound) {left : Nat} (hleft : left < 2 * b.height) :
    decode left (.ofValue b.encode) = malformed := by
  -- a block takes one level, and the list of the blocks in it another one
  induction h generalizing left with
  | @intro b operation arguments blocks ih =>
    by_cases hflat : b.blocks = []
    -- nothing is nested in it, so it is the arguments for which no level is left
    · refine refused_of_flat hflat ?_
      rwa [height_eq, hflat] at hleft
    match left with
    | 0 =>
      rw [encode_eq]
      rfl
    | 1 =>
      have hlist : (shape 0 fun _ => malformed).decode 1 (.ofValue b.encode) = malformed :=
        refused_of_blocks hflat rfl
      show ((shape 0 fun _ => malformed).decode 1 _ >>= _) = _
      rw [hlist]
      rfl
    | l + 2 =>
      -- the list of its blocks is refused with two levels less, and the block with it
      have hlist : decodeList (decode l) (l + 1) (.ofValue (.array (b.blocks.map encode))) =
          malformed := by
        rw [height_eq] at hleft
        exact refused_of_height hflat blocks (fun c hc => ih c hc) (by omega)
      have hshape := refused_of_blocks hflat hlist
      show ((shape (l + 1) (decode l)).decode (l + 2) _ >>= _) = _
      rw [hshape]
      rfl

/-! ### Nested blocks -/

/-- A block inside so many other ones, which hold nothing else. All of them have one id, which
saving and loading do not mind. -/
def nest (inner : Block) : Nat → Block
  | 0 => inner
  | depth + 1 => ⟨"b", .start, .empty, [], none, [nest inner depth]⟩

/-- A document from which such a block is read, if one is given for the innermost block. It says
nothing of the arguments of the blocks outside, and so it is less deep than what is written of the
block. -/
def nestDocument (inner : Value) : Nat → Value
  | 0 => inner
  | depth + 1 =>
    .object [("id", .text "b"), ("kind", .text "start"),
      ("blocks", .array [nestDocument inner depth])]

variable {inner : Value} {b : Block}

/-- All numbers are those of the innermost block, in the document as well as in what is written of
the block. -/
theorem numbers_nestDocument (inner : Value) (depth : Nat) :
    (nestDocument inner depth).numbers = inner.numbers := by
  induction depth with
  | zero => rfl
  | succ depth ih =>
    show (nestDocument inner depth).numbers ++ [] ++ [] = inner.numbers
    rw [ih, List.append_nil, List.append_nil]

/-- **Such a document is read** where the levels are left that the innermost block takes: each block
outside takes two of them, as its list of blocks is a level of its own. -/
theorem decode_nestDocument {left : Nat} (hinner : decode left (.ofValue inner) = .ok b)
    (depth : Nat) : decode (left + 2 * depth) (.ofValue (nestDocument inner depth)) =
      .ok (nest b depth) := by
  induction depth with
  | zero => exact hinner
  | succ depth ih =>
    rw [show left + 2 * (depth + 1) = left + 2 * depth + 2 from rfl]
    generalize left + 2 * depth = l at ih ⊢
    have hrecord : (shape (l + 1) (decode l)).decode (l + 2)
        (.ofValue (nestDocument inner (depth + 1))) =
        .ok { id := some "b", operation := some .start, blocks := some [nest b depth] } := by
      refine Shape.decode_object _ ?_ rfl
      refine (Shape.decodeMembers_member { id := some "b" } rfl rfl rfl).trans ?_
      refine (Shape.decodeMembers_member { id := some "b", operation := some .start }
        rfl rfl rfl).trans ?_
      refine (Shape.decodeMembers_member
        { id := some "b", operation := some .start, blocks := some [nest b depth] }
        rfl rfl ?_).trans rfl
      show (decodeItems (decode l) none [_] >>= _) = _
      rw [decodeItems, ih]
      rfl
    exact (bind_of_eq_ok hrecord).trans rfl

theorem numbers_encode_nest (b : Block) (depth : Nat) :
    (nest b depth).encode.numbers = b.encode.numbers := by
  induction depth with
  | zero => rfl
  | succ depth ih =>
    show [] ++ ((nest b depth).encode.numbers ++ [] ++ []) = b.encode.numbers
    rw [ih, List.nil_append, List.append_nil, List.append_nil]

/-- Each block outside adds one to the height. -/
theorem height_nest (b : Block) (depth : Nat) : (nest b depth).height = depth + b.height := by
  induction depth with
  | zero => exact (Nat.zero_add _).symm
  | succ depth ih =>
    rw [height_eq, nest, heightOf, ih, heightOf, Nat.max_zero]
    omega

/-- Around a block that can be written stands one that can. -/
theorem sound_nest (h : b.Sound) (depth : Nat) : (nest b depth).Sound := by
  induction depth with
  | zero => exact h
  | succ depth ih => exact .intro rfl Arguments.last_empty (List.forall_mem_singleton.mpr ih)

/-- A block that holds nothing at all. -/
def leaf : Block := ⟨"b", .start, .empty, [], none, []⟩

/-- A document from which it is read, without any arguments. -/
def leafDocument : Value := .object [("id", .text "b"), ("kind", .text "start")]

/-- A wait of two and a half seconds. -/
def rest : Block := ⟨"b", .wait, .insert .empty "seconds" (.number 2.5), [], none, []⟩

/-- A document from which it is read. -/
def restDocument : Value :=
  .object [("id", .text "b"), ("kind", .text "wait"),
    ("parameters", .object [("seconds", .float 2.5)])]

end Block

namespace Program

/-- How deep blocks can be nested in a program that is to be saved. A text has room for 63 of them,
one more than this. -/
def mostNested : Nat := 62

/-- **Some blocks are refused** where they are nested too deep for the levels that are left: the
text of their program is refused as a whole. -/
theorem refused_ofBlocks (left : Nat) {roots : List Block} (hsound : ∀ b ∈ roots, b.Sound)
    (hheight : left < 2 * heightOf roots) :
    decode (left + 2) (.ofValue (ofBlocks roots).encode) = malformed := by
  have hsome : roots ≠ [] := by
    rintro rfl
    exact absurd hheight (Nat.not_lt_zero _)
  have hlist : decodeList (Block.decode left) (left + 1)
      (.ofValue (.array (roots.map Block.encode))) = malformed :=
    Block.refused_of_height hsome hsound (fun b hb => (hsound b hb).refused) hheight
  have hmembers : (shape (left + 1)).decodeMembers
      (nodesOfMembers [("blocks", .array (roots.map Block.encode))]) {} = malformed := by
    show ((decodeList (Block.decode left) (left + 1) _ >>= _) >>= _) = _
    rw [hlist]
    rfl
  rw [encode_ofBlocks]
  show (((shape (left + 1)).decodeMembers (nodesOfMembers _) {} >>= _) >>= _) = _
  rw [hmembers]
  rfl

/-- **Saving loses nothing of a program**, unless its blocks are nested 63 deep, which is as deep as
they can be in a text; then what is saved is refused. What is relied on is that each finite float of
the saved document is found again where its digits stand alone. -/
theorem read_again {source : String} {p : Program} (hload : ofJson source = .ok p)
    (hfloats : p.encode.FloatsReread) :
    heightOf p.roots ≤ mostNested + 1 ∧
      ofJson p.encode.write = if heightOf p.roots ≤ mostNested then .ok p else malformed := by
  obtain ⟨q, hq, htrailing⟩ := of_bind_eq_ok hload
  obtain rfl : q = p := by
    split at htrailing
    · cases htrailing
    · exact Except.ok.inj htrailing
  -- the blocks at the top are read with 125 levels left
  obtain ⟨hroots, hblocks⟩ : q = ofBlocks q.roots ∧
      ∀ b ∈ q.roots, b.Sound ∧ 2 * b.height ≤ 125 + 1 := of_decode (read_finite source) hq
  have hagain : ofJson q.encode.write = decode depthLimit (.ofValue q.encode) :=
    decodeSource_write (finite_encode fun b hb => (hblocks b hb).1) hfloats
  have hheights : ∀ b ∈ q.roots, b.height ≤ mostNested + 1 := by
    intro b hb
    have := (hblocks b hb).2
    unfold mostNested
    omega
  refine ⟨Block.heightOf_le_iff.mpr hheights, ?_⟩
  by_cases hheight : heightOf q.roots ≤ mostNested
  -- two levels for each of 62 blocks, out of the 125
  · rw [hagain, if_pos hheight, hroots]
    refine (lasts_ofBlocks 125 fun b hb => (hblocks b hb).1.lasts ?_).reread
    have := Nat.le_trans (Block.le_heightOf hb) hheight
    unfold mostNested at this
    omega
  -- 63 blocks would need 126 of them
  · rw [hagain, if_neg hheight, hroots]
    refine refused_ofBlocks 125 (fun b hb => (hblocks b hb).1) ?_
    unfold mostNested at hheight
    omega

section Nested

variable {inner : Value} {b : Block}

/-- The text of a program with nested blocks. -/
def nestSource (inner : Value) (depth : Nat) : String :=
  (Value.object [("blocks", .array [Block.nestDocument inner depth])]).write

/-- **A program of nested blocks is loaded** if the levels that are left suffice for the innermost
one of them. A program that stands alone leaves 125 levels for its blocks. -/
theorem ofJson_nestSource (left : Nat) {depth : Nat} (hleft : left + 2 * depth = 125)
    (hinner : Block.decode left (.ofValue inner) = .ok b) (hfinite : inner.Finite)
    (hfloats : inner.FloatsReread) :
    ofJson (nestSource inner depth) = .ok (ofBlocks [Block.nest b depth]) := by
  have hnumbers : (Value.object [("blocks", .array [Block.nestDocument inner depth])]).numbers =
      inner.numbers := by
    show (Block.nestDocument inner depth).numbers ++ [] ++ [] = inner.numbers
    rw [Block.numbers_nestDocument, List.append_nil, List.append_nil]
  have hblock : Block.decode 125 (.ofValue (Block.nestDocument inner depth)) =
      .ok (Block.nest b depth) := hleft ▸ Block.decode_nestDocument hinner depth
  have hmembers : (shape 126).decodeMembers
      (nodesOfMembers [("blocks", .array [Block.nestDocument inner depth])]) {} =
      .ok { blocks := some [Block.nest b depth] } := by
    refine (Shape.decodeMembers_member { blocks := some [Block.nest b depth] } rfl rfl ?_).trans rfl
    show (decodeItems (Block.decode 125) none [_] >>= _) = _
    rw [decodeItems, hblock]
    rfl
  have hfinite' : (Value.object [("blocks", .array [Block.nestDocument inner depth])]).Finite :=
    fun n hn => hfinite n (hnumbers ▸ hn)
  have hsource : ofJson (nestSource inner depth) = decode depthLimit (.ofValue _) :=
    decodeSource_write hfinite' fun x hx => hfloats x (hnumbers ▸ hx)
  rw [hsource]
  have hrecord : (shape 126).decode 127
      (.ofValue (.object [("blocks", .array [Block.nestDocument inner depth])])) =
      .ok { blocks := some [Block.nest b depth] } :=
    Shape.decode_object 126 hmembers rfl
  exact (bind_of_eq_ok hrecord).trans rfl

theorem numbers_nest (b : Block) (depth : Nat) :
    (ofBlocks [Block.nest b depth]).encode.numbers = b.encode.numbers := by
  rw [encode_ofBlocks]
  show (Block.nest b depth).encode.numbers ++ [] ++ [] = b.encode.numbers
  rw [Block.numbers_encode_nest, List.append_nil, List.append_nil]

end Nested

/-- A wait inside 61 other blocks is loaded again, with its time as it was. This is as deep as a
block can stand and be saved, and its time is the one number of the document. -/
theorem nest_read_again :
    ofJson (nestSource Block.restDocument 61) = .ok (ofBlocks [Block.rest.nest 61]) ∧
      (ofBlocks [Block.rest.nest 61]).encode.numbers = [.real 2.5] ∧
      ofJson (ofBlocks [Block.rest.nest 61]).encode.write = .ok (ofBlocks [Block.rest.nest 61]) := by
  have hread : Numeral.Rereads (.real 2.5) := rfl
  have hload : ofJson (nestSource Block.restDocument 61) = .ok (ofBlocks [Block.rest.nest 61]) := by
    refine ofJson_nestSource 3 rfl rfl (List.forall_mem_singleton.mpr ⟨2.5, rfl, rfl⟩) ?_
    exact Value.floatsReread_of_numbers [2.5] rfl (List.forall_mem_singleton.mpr hread)
  have hnumbers : (ofBlocks [Block.rest.nest 61]).encode.numbers = [.real 2.5] := numbers_nest _ 61
  have hfloats : (ofBlocks [Block.rest.nest 61]).encode.FloatsReread :=
    Value.floatsReread_of_numbers [2.5] hnumbers (List.forall_mem_singleton.mpr hread)
  have hheight : heightOf (ofBlocks [Block.rest.nest 61]).roots ≤ mostNested := by
    show heightOf [Block.rest.nest 61] ≤ 62
    rw [heightOf, Block.height_nest]
    decide
  refine ⟨hload, hnumbers, ?_⟩
  rw [(read_again hload hfloats).2, if_pos hheight]

/-- **A program that is lost**: one of 63 nested blocks is loaded, and what it is saved as is
refused. None of the blocks has parameters in the text that is loaded; the one that is saved gives
empty ones to each, a level too deep for the innermost. -/
theorem deepest_lost : ∃ p, ofJson (nestSource Block.leafDocument 62) = .ok p ∧
    ofJson p.encode.write = .error (.fault .malformed) := by
  have hload : ofJson (nestSource Block.leafDocument 62) = .ok (ofBlocks [Block.leaf.nest 62]) :=
    ofJson_nestSource 1 rfl rfl (List.forall_mem_nil _)
      (Value.floatsReread_of_numbers [] rfl (List.forall_mem_nil _))
  refine ⟨ofBlocks [Block.leaf.nest 62], hload, ?_⟩
  have hsaved : ofJson (ofBlocks [Block.leaf.nest 62]).encode.write =
      decode depthLimit (.ofValue _) := decodeSource_write_of_numbers (numbers_nest _ 62)
  rw [hsaved]
  have hheight : heightOf [Block.leaf.nest 62] = 63 := by
    rw [heightOf, Block.height_nest]
    rfl
  have hsound : Block.leaf.Sound := .intro rfl Arguments.last_empty (List.forall_mem_nil _)
  exact refused_ofBlocks 125 (List.forall_mem_singleton.mpr (Block.sound_nest hsound 62)) (by omega)

end Program

end StagePlay
