import StagePlay.Json.Decode
import StagePlay.Proofs.Json.Finite
import StagePlay.Proofs.Json.Printed

/-!
# Things that last

A thing lasts if it can be written and read again: its written form is then a document whose numbers
are finite, and reading that document gives the thing back (`Lasts`).

What a decoder returns is known by what it keeps. Whatever holds of a record with nothing filled in
and is kept by each field holds of every record that is read (`Shape.decode_keeps`), and what holds
of every item read holds of the list (`decodeList_keeps`).
-/

namespace StagePlay.Json

open StagePlay.Number

variable {α β σ : Type}

/-- A step that returned was a step after another one that returned. Decoders are taken apart with
this, without being unfolded. -/
theorem of_bind_eq_ok {ε : Type} {x : Except ε α} {f : α → Except ε β} {b : β}
    (h : x >>= f = .ok b) : ∃ a, x = .ok a ∧ f a = .ok b := by
  cases x with
  | error e => cases h
  | ok a => exact ⟨a, rfl, h⟩

/-- A step that returned hands on what it returned. -/
theorem bind_of_eq_ok {ε : Type} {x : Except ε α} {f : α → Except ε β} {a : α} (h : x = .ok a) :
    x >>= f = f a := by
  rw [h]
  rfl

theorem error_ne_ok {ε : Type} {e : ε} {a : α} : (Except.error e : Except ε α) ≠ .ok a := by
  intro h
  cases h

/-- A step that can only meet a fault returned what it returns. -/
theorem of_orFault_eq_ok {x : Except Fault α} {a : α} (h : orFault x = .ok a) : x = .ok a := by
  cases x with
  | error f => cases h
  | ok b => cases h; rfl

/-- What is not expected is never returned, and so a decoder that returned was given what it
expects. -/
theorem mismatch_ne_ok {node : Node} {expected : String} {a : α} :
    mismatch node expected ≠ .ok a := by
  intro h
  obtain ⟨found, -, hfail⟩ := of_bind_eq_ok h
  cases hfail

/-- All numbers of a document are finite floats. The things that are saved have no other numbers. -/
def Value.Finite (v : Value) : Prop := ∀ n ∈ v.numbers, ∃ x, n = .real x ∧ isFinite x = true

/-- **A thing that lasts**: what it is written as can be written as a text, and is read as the thing
itself. -/
structure Lasts (encode : α → Value) (decode : Node → Except Error α) (a : α) : Prop where
  finite : (encode a).Finite
  reread : decode (Node.ofValue (encode a)) = .ok a

/-- **Decoding the text of a document** is decoding the document, if its numbers are finite. What is
relied on is that each of them is found again where its digits stand alone. -/
theorem decodeSource_write {decode : Nat → Node → Except Error α} {v : Value} (hv : v.Finite)
    (hfloats : v.FloatsReread) :
    decodeSource decode v.write = decode depthLimit (.ofValue v) := by
  have hread : read v.write = ⟨.ofValue v, false⟩ := by
    refine read_write fun n hn => ?_
    obtain ⟨x, rfl, hx⟩ := hv n hn
    exact hfloats x hn hx
  unfold decodeSource
  rw [hread]
  show (decode depthLimit (.ofValue v) >>= pure) = _
  cases decode depthLimit (.ofValue v) <;> rfl

/-- For a document without numbers, nothing is relied on. -/
theorem decodeSource_write_of_numbers {decode : Nat → Node → Except Error α} {v : Value}
    (h : v.numbers = []) : decodeSource decode v.write = decode depthLimit (.ofValue v) :=
  decodeSource_write (by simp [Value.Finite, h]) (Value.floatsReread_of_numbers [] h nofun)

/-- A text lasts. -/
theorem lasts_text (s : String) : Lasts Value.text decodeText s :=
  ⟨fun _ hn => absurd hn List.not_mem_nil, rfl⟩

/-! ### Lists and options -/

/-- The numbers of an array are those of its items. -/
theorem Value.finite_array {items : List Value} :
    (Value.array items).Finite ↔ ∀ item ∈ items, item.Finite := by
  show (∀ n ∈ itemNumbers items, ∃ x, n = .real x ∧ isFinite x = true) ↔ _
  induction items with
  | nil => simp [itemNumbers]
  | cons item items ih => rw [itemNumbers, List.forall_mem_append, List.forall_mem_cons, ih, Finite]

/-- The numbers of an object are those of its members. -/
theorem Value.finite_object {members : List (String × Value)} :
    (Value.object members).Finite ↔ ∀ m ∈ members, m.2.Finite := by
  show (∀ n ∈ memberNumbers members, ∃ x, n = .real x ∧ isFinite x = true) ↔ _
  induction members with
  | nil => simp [memberNumbers]
  | cons m members ih =>
    rw [memberNumbers, List.forall_mem_append, List.forall_mem_cons, ih, Finite]

/-- **A list lasts if each item does**, and needs one level more than the items do. -/
theorem Lasts.list {encode : α → Value} {decode : Node → Except Error α} {as : List α} (left : Nat)
    (h : ∀ a ∈ as, Lasts encode decode a) :
    Lasts (fun as => .array (as.map encode)) (decodeList decode (left + 1)) as where
  finite := by
    rw [Value.finite_array, List.forall_mem_map]
    exact fun a ha => (h a ha).finite
  reread := by
    show decodeItems decode none (nodesOfValues (as.map encode)) = .ok as
    induction as with
    | nil => rfl
    | cons a as ih =>
      -- the items are read one after the other, up to the end of the array
      obtain ⟨ha, has⟩ := List.forall_mem_cons.mp h
      rw [List.map_cons, nodesOfValues, decodeItems, ha.reread, ih has]
      rfl

/-- **An option lasts if what it holds does**, as long as that is not written as nothing: for then
it would be read as missing. -/
theorem Lasts.orNull {encode : α → Value} {decode : Node → Except Error α} {o : Option α}
    (hnull : ∀ a, Node.ofValue (encode a) ≠ .null) (h : ∀ a ∈ o, Lasts encode decode a) :
    Lasts (.orNull encode) (decodeOption decode) o := by
  cases o with
  | none => exact ⟨fun _ hn => absurd hn List.not_mem_nil, rfl⟩
  | some a =>
    refine ⟨(h a rfl).finite, ?_⟩
    show decodeOption decode (Node.ofValue (encode a)) = .ok (some a)
    rw [decodeOption, (h a rfl).reread]
    · rfl
    · exact hnull a

/-- **What holds of every item that is read holds of a list that is read.** The items are finite if
the array is, and the fault at its end only refuses it. -/
theorem decodeList_keeps {P : α → Prop} {decode : Node → Except Error α} {left : Nat} {node : Node}
    {as : List α} (hitem : ∀ item a, item.Finite → decode item = .ok a → P a) (hnode : node.Finite)
    (h : decodeList decode left node = .ok as) : ∀ a ∈ as, P a := by
  have hitems (fault : Option Fault) (items : List Node) (hfinite : ∀ item ∈ items, item.Finite) :
      ∀ {as}, decodeItems decode fault items = .ok as → ∀ a ∈ as, P a := by
    induction items with
    | nil =>
      intro as h
      obtain ⟨-, -, hpure⟩ := of_bind_eq_ok h
      cases hpure
      simp
    | cons item items ih =>
      intro as h
      obtain ⟨hfirst, hothers⟩ := List.forall_mem_cons.mp hfinite
      obtain ⟨a, ha, h⟩ := of_bind_eq_ok h
      obtain ⟨others, hrest, hpure⟩ := of_bind_eq_ok h
      cases hpure
      exact List.forall_mem_cons.mpr ⟨hitem item a hfirst ha, ih hothers hrest⟩
  cases node with
  | array items fault =>
    rw [decodeList] at h
    split at h
    · cases h
    · exact hitems fault items (Node.finite_array.mp hnode) h
  -- nothing but an array is read as a list
  | _ => exact absurd h mismatch_ne_ok

/-! ### Records -/

namespace Shape

variable {shape : Shape σ} {P : σ → Prop}

/-- **Every field keeps `P`** while it is filled in, whatever finite value it is filled in from. -/
def Keeps (shape : Shape σ) (P : σ → Prop) : Prop :=
  ∀ f ∈ shape.fields, ∀ node s s', node.Finite → P s → f.decode node s = .ok s' → P s'

/-- The members of a record keep what its fields keep. A member fills in a field, or is passed over.
-/
theorem decodeMembers_keeps (hkeeps : shape.Keeps P) {members : List (Node × Node)}
    (hfinite : ∀ m ∈ members, m.1.Finite ∧ m.2.Finite) {s s' : σ} (hs : P s)
    (h : shape.decodeMembers members s = .ok s') : P s' := by
  induction members generalizing s with
  | nil =>
    cases h
    exact hs
  | cons m members ih =>
    obtain ⟨key, value⟩ := m
    obtain ⟨⟨-, hvalue⟩, hothers⟩ := List.forall_mem_cons.mp hfinite
    obtain ⟨name, -, h⟩ := of_bind_eq_ok h
    -- the key names a field, which must not be filled in already; or it names none
    split at h
    · next f hfield =>
      split at h
      · cases h
      · obtain ⟨t, ht, h⟩ := of_bind_eq_ok h
        exact ih hothers (hkeeps f (List.mem_of_find?_eq_some hfield) value s t hvalue hs ht) h
    · obtain ⟨-, -, h⟩ := of_bind_eq_ok h
      exact ih hothers hs h

/-- The items of a record keep what its fields keep. The induction is on the fields, of which the
items may be fewer but not more. -/
theorem decodeElements_keeps (hkeeps : shape.Keeps P) {fault : Option Fault}
    {fields : List (RecordField σ)} (hfields : fields ⊆ shape.fields) {count : Nat}
    {items : List Node} (hfinite : ∀ item ∈ items, item.Finite) {s s' : σ} (hs : P s)
    (h : shape.decodeElements fault fields count items s = .ok s') : P s' := by
  induction fields generalizing count items s with
  | nil =>
    cases items with
    | nil =>
      obtain ⟨-, -, hpure⟩ := of_bind_eq_ok h
      cases hpure
      exact hs
    -- an item is left over
    | cons item items => cases h
  | cons f fields ih =>
    obtain ⟨hf, hothers⟩ := List.cons_subset.mp hfields
    cases items with
    | nil =>
      obtain ⟨-, -, h⟩ := of_bind_eq_ok h
      split at h
      · cases h
      · exact ih hothers hfinite hs h
    | cons item items =>
      obtain ⟨hitem, hitems⟩ := List.forall_mem_cons.mp hfinite
      obtain ⟨t, ht, h⟩ := of_bind_eq_ok h
      exact ih hothers hitems (hkeeps f hf item s t hitem hs ht) h

/-- **What every field keeps holds of every record that is read**, in either form, if it holds of a
record with nothing filled in. -/
theorem decode_keeps (hkeeps : shape.Keeps P) (hblank : P shape.blank) {left : Nat} {node : Node}
    (hnode : node.Finite) {s : σ} (h : shape.decode left node = .ok s) : P s := by
  cases node with
  | array items fault =>
    rw [decode] at h
    split at h
    · cases h
    · exact decodeElements_keeps hkeeps (List.Subset.refl _) (Node.finite_array.mp hnode) hblank h
  | object members fault =>
    rw [decode] at h
    split at h
    · cases h
    · obtain ⟨t, ht, h⟩ := of_bind_eq_ok h
      obtain ⟨-, -, h⟩ := of_bind_eq_ok h
      split at h
      · cases h
      · cases h
        exact decodeMembers_keeps hkeeps (Node.finite_object.mp hnode) hblank ht
  | _ => exact absurd h mismatch_ne_ok

/-- A record whose members are read and whose required fields are filled in. -/
theorem decode_object {members : List (Node × Node)} {s : σ} (left : Nat)
    (hmembers : shape.decodeMembers members shape.blank = .ok s) (hfull : shape.missing? s = none) :
    shape.decode (left + 1) (.object members none) = .ok s := by
  rw [decode, if_neg (Nat.succ_ne_zero left), hmembers]
  simp only [bind, Except.bind, checkFault, pure, Except.pure, orFault, hfull]

end Shape

/-! ### Members that may be left out -/

/-- A member, where there is something to write, and no member otherwise. -/
def memberOf (key : String) : Option Value → List (String × Value)
  | none => []
  | some value => [(key, value)]

/-- Several things, where there are any. -/
def unlessEmpty : List α → Option (List α)
  | [] => none
  | a :: as => some (a :: as)

@[simp] theorem getD_unlessEmpty (as : List α) : (unlessEmpty as).getD [] = as := by
  cases as <;> rfl

/-- A list as a document, where there is something in it. -/
def listMember (encode : α → Value) (as : List α) : Option Value :=
  (unlessEmpty as).map fun as => .array (as.map encode)

/-- An empty list is left out. -/
theorem unlessEmpty_of_listMember {encode : α → Value} {as : List α}
    (h : listMember encode as = none) : unlessEmpty as = none := Option.map_eq_none_iff.mp h

/-- **A list that is not left out lasts if each item does.** An empty list is left out, and is found
again as what is there if nothing is read. -/
theorem Lasts.listMember {encode : α → Value} {decode : Node → Except Error α} {as : List α}
    (left : Nat) (h : ∀ a ∈ as, Lasts encode decode a) {v : Value}
    (hv : v ∈ listMember encode as) :
    v.Finite ∧ decodeList decode (left + 1) (Node.ofValue v) = .ok as ∧ unlessEmpty as = some as := by
  cases as with
  | nil => cases hv
  | cons a as =>
    obtain rfl := Option.some.inj hv
    have hlist := Lasts.list left h
    exact ⟨hlist.finite, hlist.reread, rfl⟩

/-- The numbers of a member are those of its value. -/
theorem finite_memberOf {key : String} {value : Option Value} {rest : List (String × Value)}
    (hvalue : ∀ v ∈ value, v.Finite) (hrest : ∀ m ∈ rest, m.2.Finite) :
    ∀ m ∈ memberOf key value ++ rest, m.2.Finite := by
  cases value with
  | none => exact hrest
  | some v => exact List.forall_mem_cons.mpr ⟨hvalue v rfl, hrest⟩

/-- **A member fills its field**, which leads to `t`, and the members after it are read on from
there. -/
theorem Shape.decodeMembers_member {shape : Shape σ} {key : String} {f : RecordField σ} {v : Value}
    {rest : List (String × Value)} {s : σ} (t : σ) (hfield : shape.field? key = some f)
    (hempty : f.filled s = false) (hread : f.decode (Node.ofValue v) s = .ok t) :
    shape.decodeMembers (nodesOfMembers ((key, v) :: rest)) s =
      shape.decodeMembers (nodesOfMembers rest) t := by
  rw [nodesOfMembers, Shape.decodeMembers]
  simp only [Node.keyText, bind, Except.bind, pure, Except.pure, orFault, hfield, hempty, hread,
    Bool.false_eq_true, if_false]

/-- **A member that is read** is put in its field, if the field takes what it reads as it is. -/
theorem Shape.decodeMembers_put {shape : Shape σ} {key : String} {f : RecordField σ} {v : Value}
    {rest : List (String × Value)} {s : σ} {decode : Node → Except Error α} {a : α} (put : α → σ)
    (hfield : shape.field? key = some f) (hempty : f.filled s = false)
    (hread : decode (Node.ofValue v) = .ok a)
    (hput : f.decode (Node.ofValue v) s = decode (Node.ofValue v) >>= fun a => pure (put a)) :
    shape.decodeMembers (nodesOfMembers ((key, v) :: rest)) s =
      shape.decodeMembers (nodesOfMembers rest) (put a) :=
  decodeMembers_member (put a) hfield hempty (hput.trans (bind_of_eq_ok hread))

/-- **A member that may be left out** fills its field, or none. In the second case the record has to
be already what the field would have made of it. -/
theorem Shape.decodeMembers_memberOf {shape : Shape σ} {key : String} {f : RecordField σ}
    {value : Option Value} {rest : List (String × Value)} {s : σ} (t : σ)
    (hfield : shape.field? key = some f) (hempty : f.filled s = false)
    (hnone : value = none → t = s)
    (hsome : ∀ v ∈ value, f.decode (Node.ofValue v) s = .ok t) :
    shape.decodeMembers (nodesOfMembers (memberOf key value ++ rest)) s =
      shape.decodeMembers (nodesOfMembers rest) t := by
  cases value with
  | none =>
    rw [hnone rfl]
    rfl
  | some v => exact decodeMembers_member t hfield hempty (hsome v rfl)

end StagePlay.Json
