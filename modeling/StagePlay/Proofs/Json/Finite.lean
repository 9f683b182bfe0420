import StagePlay.Json.Reader
import StagePlay.Proofs.Number.Finite

/-!
# A text holds only finite numbers

Whatever a text is, the numbers that the reader finds in it have finite floats: a number beyond
every float is unreadable, and a whole number is one only if 64 bits hold it. This is an invariant
of the reader's state, which is all that it has found so far.

* `Node.Finite`, `State.Finite` — all numbers of a node, of a state, are finite;
* `State.finite_step` — one character keeps a state finite;
* `read_finite` — the result.
-/

namespace StagePlay.Json

open StagePlay.Number

/-- A number whose float is finite. -/
def Numeral.Finite (n : Numeral) : Prop := isFinite n.toFloat = true

mutual

/-- All numbers of a node are finite. -/
def Node.Finite : Node → Prop
  | .number n => n.Finite
  | .array items _ => itemsFinite items
  | .object members _ => membersFinite members
  | _ => True

/-- All numbers of these items are finite. -/
def itemsFinite : List Node → Prop
  | [] => True
  | item :: items => item.Finite ∧ itemsFinite items

/-- All numbers of these members are finite. -/
def membersFinite : List (Node × Node) → Prop
  | [] => True
  | (key, value) :: members => key.Finite ∧ value.Finite ∧ membersFinite members

end

theorem itemsFinite_iff {items : List Node} :
    itemsFinite items ↔ ∀ item ∈ items, item.Finite := by
  induction items with
  | nil => simp [itemsFinite]
  | cons item items ih => simp [itemsFinite, ih]

theorem membersFinite_iff {members : List (Node × Node)} :
    membersFinite members ↔ ∀ m ∈ members, m.1.Finite ∧ m.2.Finite := by
  induction members with
  | nil => simp [membersFinite]
  | cons m members ih => simp [membersFinite, ih, and_assoc]

/-- A finite array has finite items. -/
@[simp] theorem Node.finite_array {items : List Node} {fault : Option Fault} :
    (Node.array items fault).Finite ↔ ∀ item ∈ items, item.Finite := itemsFinite_iff

/-- A finite object has finite keys and values. -/
@[simp] theorem Node.finite_object {members : List (Node × Node)} {fault : Option Fault} :
    (Node.object members fault).Finite ↔ ∀ m ∈ members, m.1.Finite ∧ m.2.Finite :=
  membersFinite_iff

/-! ### What ends -/

/-- **A number that ends is finite or unreadable.** A number that is beyond every float is not read
as an infinity. -/
theorem NumberScan.finite_real (scan : NumberScan) : scan.real.Finite := by
  unfold real
  split
  · next hx => exact hx
  · exact trivial

/-- **What a number is read as is finite**: a whole number that 64 bits hold, with a sign if it has
one, or else the float nearest to it, if that is one. -/
theorem NumberScan.finite_node (scan : NumberScan) : scan.node.Finite := by
  have hword : scan.digits.toNat < wordBound := scan.digits.toNat_lt
  unfold node
  split
  · split
    · exact scan.finite_real
    · split
      · split
        · next h =>
          refine isFinite_ofInt ?_ ?_
          · simp at h
            omega
          · have : (0 : Int) < wordBound := by decide
            omega
        · exact scan.finite_real
      -- without a sign
      · exact isFinite_ofInt (by omega) (Int.ofNat_lt.mpr hword)
  · exact scan.finite_real

/-- A text has no numbers, and neither has a broken one. -/
theorem TextScan.finite_node (scan : TextScan) : scan.node.Finite := by
  unfold node
  split <;> exact trivial

/-! ### The reader -/

/-- All numbers of what is open are finite: those of the items and members that were found in it so
far, and that of a key whose value is still to come. -/
def Frame.Finite : Frame → Prop
  | .array items => ∀ item ∈ items, item.Finite
  | .object members => ∀ m ∈ members, m.1.Finite ∧ m.2.Finite
  | .member members key => key.Finite ∧ ∀ m ∈ members, m.1.Finite ∧ m.2.Finite

/-- What a word stands for is finite. In the other modes nothing has been found yet that is not on
the stack. -/
def Mode.Finite : Mode → Prop
  | .word _ node => node.Finite
  | _ => True

/-- **All numbers found so far are finite.** This is the invariant of the reader. A state is a stack
of what is open, and the root as soon as that is closed. -/
def State.Finite : State → Prop
  | .reading mode stack => mode.Finite ∧ ∀ frame ∈ stack, frame.Finite
  | .finished root _ => root.Finite
  | .broken root => root.Finite

/-- **A fault adds no number.** It closes everything that is open, from the inside out, with a fault
in each; the induction is on what is open. -/
theorem finite_collapse {leaf : Option Node} {stack : List Frame} (f : Fault)
    (hleaf : ∀ node ∈ leaf, node.Finite) (hstack : ∀ frame ∈ stack, frame.Finite) :
    (collapse leaf f stack).Finite := by
  induction stack generalizing leaf with
  | nil => cases leaf <;> simp_all [collapse, Node.Finite]
  | cons frame stack ih =>
    obtain ⟨hframe, hrest⟩ := List.forall_mem_cons.mp hstack
    have hgetD : (leaf.getD (.missing f)).Finite := by
      cases leaf with
      | none => exact trivial
      | some node => exact hleaf node rfl
    -- each frame closes around what is open in it, which is then open in the next one
    cases frame with
    | array items =>
      refine ih (fun node hnode => ?_) hrest
      obtain rfl := Option.mem_some.mp hnode
      simp only [Node.finite_array, List.mem_reverse, List.mem_append, Option.mem_toList]
      rintro item (hitem | hitem)
      · exact hleaf item hitem
      · exact hframe item hitem
    | object members =>
      refine ih (fun node hnode => ?_) hrest
      obtain rfl := Option.mem_some.mp hnode
      simp only [Node.finite_object, List.mem_reverse, List.mem_append, List.mem_map,
        Option.mem_toList]
      rintro m (⟨key, hkey, rfl⟩ | hm)
      · exact ⟨hleaf key hkey, trivial⟩
      · exact hframe m hm
    | member members key =>
      refine ih (fun node hnode => ?_) hrest
      obtain rfl := Option.mem_some.mp hnode
      simp only [Node.finite_object, List.mem_reverse, List.mem_cons]
      rintro m (rfl | hm)
      · exact ⟨hframe.1, hgetD⟩
      · exact hframe.2 m hm

namespace State

/-- A wrong character closes everything that is open, too. -/
theorem finite_malformed {leaf : Option Node} {stack : List Frame}
    (hleaf : ∀ node ∈ leaf, node.Finite) (hstack : ∀ frame ∈ stack, frame.Finite) :
    (malformed leaf stack).Finite := finite_collapse .malformed hleaf hstack

/-- Where no number stands a wrong character adds none. -/
theorem finite_malformed_none {stack : List Frame} (hstack : ∀ frame ∈ stack, frame.Finite) :
    (malformed none stack).Finite := finite_malformed (by simp) hstack

/-- A broken scalar or text is no number. -/
theorem finite_malformed_some {node : Node} {stack : List Frame} (hnode : node.Finite)
    (hstack : ∀ frame ∈ stack, frame.Finite) : (malformed (some node) stack).Finite :=
  finite_malformed (by simpa using hnode) hstack

/-- **A node that is found** goes into what is open around it. As a key of an object it has to be a
text, and otherwise everything is closed. -/
theorem finite_deliver {node : Node} {stack : List Frame} (hnode : node.Finite)
    (hstack : ∀ frame ∈ stack, frame.Finite) : (deliver node stack).Finite := by
  cases stack with
  | nil => exact hnode
  | cons frame stack =>
    obtain ⟨hframe, hrest⟩ := List.forall_mem_cons.mp hstack
    cases frame with
    | array items =>
      exact ⟨trivial, List.forall_mem_cons.mpr ⟨List.forall_mem_cons.mpr ⟨hnode, hframe⟩, hrest⟩⟩
    | object members =>
      have hbroken := finite_malformed_some hnode hstack
      have hcolon : (State.reading .colon (.member members node :: stack)).Finite :=
        ⟨trivial, List.forall_mem_cons.mpr ⟨⟨hnode, hframe⟩, hrest⟩⟩
      cases node <;> first | exact hcolon | exact hbroken
    | member members key =>
      -- it is the value of a key
      exact ⟨trivial, List.forall_mem_cons.mpr
        ⟨List.forall_mem_cons.mpr ⟨⟨hframe.1, hnode⟩, hframe.2⟩, hrest⟩⟩

/-- The first character of a value opens something, or is wrong. -/
theorem finite_start (c : Char) {stack : List Frame} (hstack : ∀ frame ∈ stack, frame.Finite) :
    (start c stack).Finite := by
  have hopen : ∀ frame : Frame, frame.Finite → ∀ f ∈ frame :: stack, f.Finite :=
    fun frame h => List.forall_mem_cons.mpr ⟨h, hstack⟩
  unfold start
  repeat' split
  all_goals first
    | exact ⟨trivial, hstack⟩
    | exact ⟨trivial, hopen _ (by simp [Frame.Finite])⟩
    | exact finite_malformed_some trivial hstack

/-- **After a value** there is a comma, the end of what is open, or a wrong character. The end makes
a node of what was open, whose numbers were finite already. -/
theorem finite_afterValue (c : Char) {stack : List Frame}
    (hstack : ∀ frame ∈ stack, frame.Finite) : (afterValue c stack).Finite := by
  unfold afterValue
  split
  -- in an array, and then in an object: a comma, the end, or a wrong character
  · obtain ⟨hframe, hrest⟩ := List.forall_mem_cons.mp hstack
    repeat' split
    · exact ⟨trivial, hstack⟩
    · refine finite_deliver (Node.finite_array.mpr ?_) hrest
      intro item hitem
      exact hframe item (List.mem_reverse.mp hitem)
    · exact finite_malformed_none hstack
  · obtain ⟨hframe, hrest⟩ := List.forall_mem_cons.mp hstack
    repeat' split
    · exact ⟨trivial, hstack⟩
    · refine finite_deliver (Node.finite_object.mpr ?_) hrest
      intro m hm
      exact hframe m (List.mem_reverse.mp hm)
    · exact finite_malformed_none hstack
  · exact finite_malformed_none hstack

/-- A character that ended a number is read once more, after it. -/
theorem finite_follow (c : Char) {state : State} (h : state.Finite) : (follow c state).Finite := by
  cases state with
  | reading mode stack =>
    rw [follow]
    split
    · exact h
    · exact finite_afterValue c h.2
  | finished root trailing => exact h
  | broken root => exact h

/-- **One character keeps a state finite.** The cases are the modes of the reader: in a word or a
number or a text something may be found, and in the others the structure goes on. -/
theorem finite_step {state : State} (h : state.Finite) (c : Char) : (state.step c).Finite := by
  cases state with
  | finished root trailing => exact h
  | broken root => exact h
  | reading mode stack =>
    have hstack := h.2
    have hbroken : (malformed (some malformedScalar) stack).Finite :=
      finite_malformed_some trivial hstack
    cases mode
    case word rest node =>
      -- a word may have come to its end
      unfold step
      dsimp only
      split
      · exact hbroken
      · split
        · exact finite_deliver h.1 hstack
        · exact hbroken
      · split
        · exact h
        · exact hbroken
    case number scan =>
      -- the number goes on, or the character that ended it is read after it
      unfold step
      dsimp only
      split
      · exact ⟨trivial, hstack⟩
      · split
        · exact finite_follow c (finite_deliver scan.finite_node hstack)
        · exact hbroken
    case text scan =>
      -- the text goes on, ends, or is broken
      unfold step
      dsimp only
      split
      · exact ⟨trivial, hstack⟩
      · next scan' _ => exact finite_deliver scan'.finite_node hstack
      · exact finite_malformed_some trivial hstack
    -- between the parts of a document a character only opens or closes something
    case value | firstItem | firstKey | nextKey | colon | more =>
      unfold step
      dsimp only
      repeat' split
      all_goals first
        | exact h
        | exact finite_start c hstack
        | exact finite_afterValue c hstack
        | exact ⟨trivial, hstack⟩
        | exact finite_malformed_some trivial hstack
        | exact finite_malformed_none hstack

/-- Where the text ends, nothing is added but a fault. -/
theorem finite_finish {state : State} (h : state.Finite) : state.finish.root.Finite := by
  cases state with
  | finished root trailing => exact h
  | broken root => exact h
  | reading mode stack =>
    have hends (leaf : Option Node) (hleaf : ∀ node ∈ leaf, node.Finite) :
        (collapse leaf .truncated stack).Finite := finite_collapse _ hleaf h.2
    have hsome (node : Node) (hnode : node.Finite) :=
      hends (some node) (by simpa using hnode)
    cases mode with
    | value => exact hsome _ trivial
    | firstItem => exact hends none (by simp)
    | firstKey => exact hends none (by simp)
    | nextKey => exact hsome _ trivial
    | colon => exact hends none (by simp)
    | more => exact hends none (by simp)
    | word rest node => exact hsome _ trivial
    | text scan => exact hsome _ trivial
    | number scan =>
      unfold finish
      dsimp only
      split
      · split
        · exact scan.finite_node
        · exact hsome _ scan.finite_node
      · exact hsome _ trivial

end State

/-- **Every number that a text holds is finite.** The invariant holds of the state in which the
reader begins, each character keeps it, and so does the end of the text. -/
theorem read_finite (source : String) : (read source).root.Finite := by
  have hrun (cs : List Char) (state : State) (h : state.Finite) :
      (cs.foldl State.step state).Finite := by
    induction cs generalizing state with
    | nil => exact h
    | cons c cs ih => exact ih _ (State.finite_step h c)
  exact State.finite_finish (hrun _ _ ⟨trivial, by simp⟩)

end StagePlay.Json
