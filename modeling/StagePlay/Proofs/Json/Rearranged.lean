import Mathlib.Data.List.Forall2
import Mathlib.Data.List.Pairwise
import Mathlib.Logic.Relation
import StagePlay.Proofs.Json.Record

/-!
# Rearranged documents

The members of an object can stand in any order, and a record passes over members that it does not
know. So there are many documents from which the same thing is read. A `Plan` says where members may
be added: to a record, under any key that is none of its fields, but not to an object that stands for
the name of a choice, since that one has a single key. One change of a document that follows a plan
is a `Step`, and documents that such changes lead between are `Rearranged`.

A decoder is `Insensitive` to a plan if it reads the same from documents that are one step apart, or
refuses both. What it says when it refuses may differ, since that is the first thing wrong in the
order of the text.

* `Orderly.insensitive` — a record whose fields do not interfere with each other;
* `insensitive_decodeVariant`, `Insensitive.option`, `Insensitive.list` — the other decoders;
* `Insensitive.decodeSource_iff` — what this means for texts.
-/

namespace StagePlay.Json

variable {α β σ : Type}

/-! ### Plans -/

/-- **Where members may be added**, and how the parts of a document can be arranged in turn. -/
inductive Plan where
  /-- Anywhere. -/
  | free
  /-- Nowhere: an object here stands for a name. -/
  | choice
  /-- In each item as this plan says. -/
  | list (each : Plan)
  /-- Under any key that is no field, and in each field as its plan says. The fields stand in the
  order that they have in an array. -/
  | record (fields : List (String × Plan))

namespace Plan

/-- Whether a member may be added under a key. A record takes any key that is none of its fields; a
list is no object, so of it nothing is asked. -/
def admits : Plan → String → Bool
  | .free, _ => true
  | .choice, _ => false
  | .list _, _ => true
  | .record fields, key => (fields.lookup key).isNone

/-- The plan of the value under a key. -/
def member : Plan → String → Plan
  | .free, _ => .free
  | .choice, _ => .choice
  | .list _, _ => .free
  | .record fields, key => (fields.lookup key).getD .free

/-- The plan of an item. -/
def item : Plan → Nat → Plan
  | .free, _ => .free
  | .choice, _ => .choice
  | .list each, _ => each
  | .record fields, i => (fields[i]?.map Prod.snd).getD .free

end Plan

/-- **One change of a document**: the members of an object change places, a member with a text is
added, or one of the parts is changed. -/
inductive Step : Plan → Node → Node → Prop
  | reorder {p : Plan} {members members' : List (Node × Node)} {fault : Option Fault}
      (h : members.Perm members') : Step p (.object members fault) (.object members' fault)
  | extra {p : Plan} {members : List (Node × Node)} {fault : Option Fault} (key text : String)
      (h : p.admits key = true) :
      Step p (.object members fault) (.object ((.text key, .text text) :: members) fault)
  | member {p : Plan} {key : String} {v v' : Node} {members : List (Node × Node)}
      {fault : Option Fault} (h : Step (p.member key) v v') :
      Step p (.object ((.text key, v) :: members) fault) (.object ((.text key, v') :: members) fault)
  | item {p : Plan} {before after : List Node} {v v' : Node} {fault : Option Fault}
      (h : Step (p.item before.length) v v') :
      Step p (.array (before ++ v :: after) fault) (.array (before ++ v' :: after) fault)

/-- **Rearranged documents**: changes lead from the one to the other, forth or back. -/
def Rearranged (p : Plan) : Node → Node → Prop := Relation.EqvGen (Step p)

/-- An array or an object. -/
def Node.isComposite : Node → Bool
  | .array _ _ => true
  | .object _ _ => true
  | _ => false

namespace Step

variable {p : Plan} {n n' : Node}

/-- An object is changed into an object, or an array into an array. The fault at its end stays what
it was. -/
theorem forms (h : Step p n n') :
    (∃ members members' fault, n = .object members fault ∧ n' = .object members' fault) ∨
      (∃ items items' fault, n = .array items fault ∧ n' = .array items' fault) := by
  cases h with
  -- one change is within an array, and the three others are within an object
  | item _ => exact .inr ⟨_, _, _, rfl, rfl⟩
  | _ => exact .inl ⟨_, _, _, rfl, rfl⟩

theorem composite (h : Step p n n') : n.isComposite = true ∧ n'.isComposite = true := by
  cases h <;> exact ⟨rfl, rfl⟩

end Step

/-! ### Passing over -/

/-- A step that returns nothing and another one return if both do. -/
theorem andThen_eq_ok {ε : Type} {x : Except ε Unit} {y : Except ε β} {b : β} :
    (x >>= fun _ => y) = .ok b ↔ x = .ok () ∧ y = .ok b := by
  cases x <;> simp [bind, Except.bind]

theorem checkFault_eq_ok {fault : Option Fault} : checkFault fault = .ok () ↔ fault = none := by
  cases fault <;> simp [checkFault, pure, Except.pure, throw, throwThe, MonadExceptOf.throw]

theorem skipItems_eq_ok {items : List Node} :
    skipItems items = .ok () ↔ ∀ item ∈ items, item.skip = .ok () := by
  induction items with
  | nil => simp [skipItems, pure, Except.pure]
  | cons item items ih => rw [skipItems, andThen_eq_ok, ih, List.forall_mem_cons]

theorem skipMembers_eq_ok {members : List (Node × Node)} :
    skipMembers members = .ok () ↔
      ∀ m ∈ members, m.1.skipKey = .ok () ∧ m.2.skip = .ok () := by
  induction members with
  | nil => simp [skipMembers, pure, Except.pure]
  | cons m members ih =>
    rw [skipMembers, andThen_eq_ok, andThen_eq_ok, ih, List.forall_mem_cons, and_assoc]

/-- An array is passed over if each item is. -/
theorem Node.skip_array {items : List Node} {fault : Option Fault} :
    (Node.array items fault).skip = .ok () ↔
      (∀ item ∈ items, item.skip = .ok ()) ∧ fault = none := by
  rw [Node.skip, andThen_eq_ok, skipItems_eq_ok, checkFault_eq_ok]

/-- An object is passed over if each member is. -/
theorem Node.skip_object {members : List (Node × Node)} {fault : Option Fault} :
    (Node.object members fault).skip = .ok () ↔
      (∀ m ∈ members, m.1.skipKey = .ok () ∧ m.2.skip = .ok ()) ∧ fault = none := by
  rw [Node.skip, andThen_eq_ok, skipMembers_eq_ok, checkFault_eq_ok]

/-- **Passing over a document** does not see how it is arranged. Each member has to be passed over,
in whatever order, and a text that is added can be. -/
theorem Step.skip {p : Plan} {n n' : Node} (h : Step p n n') :
    n.skip = .ok () ↔ n'.skip = .ok () := by
  induction h with
  | reorder h => simp only [Node.skip_object, h.mem_iff]
  | extra key text h =>
    have htext : (Node.text key).skipKey = .ok () ∧ (Node.text text).skip = .ok () := ⟨rfl, rfl⟩
    simp only [Node.skip_object, List.forall_mem_cons, htext, true_and]
  | member h ih => simp only [Node.skip_object, List.forall_mem_cons, ih]
  | item h ih => simp only [Node.skip_array, List.forall_mem_append, List.forall_mem_cons, ih]

/-! ### Documents without faults -/

/-- **A node without any fault**, where so many more arrays and objects may be opened. -/
def Node.Whole (left : Nat) (n : Node) : Prop := ∃ v, n.complete left = .ok v

/-- Items are without fault if each of them is. -/
theorem completeItems_eq_ok {left : Nat} {items : List Node} :
    (∃ vs, completeItems left items = .ok vs) ↔ ∀ item ∈ items, item.Whole left := by
  induction items with
  | nil => simp [completeItems, pure, Except.pure]
  | cons item items ih =>
    rw [List.forall_mem_cons, ← ih]
    constructor
    · rintro ⟨vs, h⟩
      obtain ⟨v, hv, h⟩ := of_bind_eq_ok h
      obtain ⟨others, hothers, -⟩ := of_bind_eq_ok h
      exact ⟨⟨v, hv⟩, others, hothers⟩
    · rintro ⟨⟨v, hv⟩, others, hothers⟩
      refine ⟨v :: others, ?_⟩
      rw [completeItems, hv, hothers]
      rfl

theorem keyText_eq_ok {key : Node} {name : String} : key.keyText = .ok name ↔ key = .text name := by
  cases key <;> simp [Node.keyText, pure, Except.pure, throw, throwThe, MonadExceptOf.throw]

/-- Members are without fault if each of them is and has a text for its key. -/
theorem completeMembers_eq_ok {left : Nat} {members : List (Node × Node)} :
    (∃ vs, completeMembers left members = .ok vs) ↔
      ∀ m ∈ members, (∃ name, m.1 = .text name) ∧ m.2.Whole left := by
  induction members with
  | nil => simp [completeMembers, pure, Except.pure]
  | cons m members ih =>
    obtain ⟨key, value⟩ := m
    rw [List.forall_mem_cons, ← ih]
    constructor
    · rintro ⟨vs, h⟩
      obtain ⟨name, hname, h⟩ := of_bind_eq_ok h
      obtain ⟨v, hv, h⟩ := of_bind_eq_ok h
      obtain ⟨others, hothers, -⟩ := of_bind_eq_ok h
      exact ⟨⟨⟨name, keyText_eq_ok.mp hname⟩, v, hv⟩, others, hothers⟩
    · rintro ⟨⟨⟨name, hname⟩, v, hv⟩, others, hothers⟩
      refine ⟨(name, v) :: others, ?_⟩
      rw [completeMembers, keyText_eq_ok.mpr hname]
      show (value.complete left >>= _) = _
      rw [hv]
      show (completeMembers left members >>= _) = _
      rw [hothers]
      rfl

/-- An array is without fault if its items are. -/
theorem Node.whole_array {left : Nat} {items : List Node} {fault : Option Fault} :
    (Node.array items fault).Whole (left + 1) ↔
      (∀ item ∈ items, item.Whole left) ∧ fault = none := by
  rw [← completeItems_eq_ok, ← checkFault_eq_ok]
  constructor
  · rintro ⟨v, h⟩
    obtain ⟨vs, hvs, h⟩ := of_bind_eq_ok h
    exact ⟨⟨vs, hvs⟩, (andThen_eq_ok.mp h).1⟩
  · rintro ⟨⟨vs, hvs⟩, hfault⟩
    refine ⟨.array vs, ?_⟩
    rw [Node.complete, hvs]
    exact andThen_eq_ok.mpr ⟨hfault, rfl⟩

/-- An object is without fault if its members are. -/
theorem Node.whole_object {left : Nat} {members : List (Node × Node)} {fault : Option Fault} :
    (Node.object members fault).Whole (left + 1) ↔
      (∀ m ∈ members, (∃ name, m.1 = .text name) ∧ m.2.Whole left) ∧ fault = none := by
  rw [← completeMembers_eq_ok, ← checkFault_eq_ok]
  constructor
  · rintro ⟨v, h⟩
    obtain ⟨vs, hvs, h⟩ := of_bind_eq_ok h
    exact ⟨⟨vs, hvs⟩, (andThen_eq_ok.mp h).1⟩
  · rintro ⟨⟨vs, hvs⟩, hfault⟩
    refine ⟨.object vs, ?_⟩
    rw [Node.complete, hvs]
    exact andThen_eq_ok.mpr ⟨hfault, rfl⟩

/-- An array or object does not fit where none may be opened. -/
theorem Node.not_whole_zero {n : Node} (h : n.isComposite = true) : ¬n.Whole 0 := by
  rintro ⟨v, hv⟩
  cases n with
  | array items fault => cases hv
  | object members fault => cases hv
  | _ => cases h

/-- Two arrays or objects are without fault alike if they are where one more may be opened; where
none may be opened, neither is. -/
theorem Node.whole_congr {n n' : Node} (hn : n.isComposite = true) (hn' : n'.isComposite = true)
    (h : ∀ left, n.Whole (left + 1) ↔ n'.Whole (left + 1)) (left : Nat) :
    n.Whole left ↔ n'.Whole left := by
  cases left with
  | zero => exact iff_of_false (not_whole_zero hn) (not_whole_zero hn')
  | succ left => exact h left

/-- **Whether a document is without fault** does not depend on how it is arranged. The cases are the
four changes; in each of them what has to be whole are the members, or the items. -/
theorem Step.whole {p : Plan} {n n' : Node} (h : Step p n n') (left : Nat) :
    n.Whole left ↔ n'.Whole left := by
  induction h generalizing left with
  | reorder h =>
    refine Node.whole_congr rfl rfl (fun left => ?_) left
    simp only [Node.whole_object, h.mem_iff]
  | extra key text h =>
    refine Node.whole_congr rfl rfl (fun left => ?_) left
    have htext : (∃ name, Node.text key = .text name) ∧ (Node.text text).Whole left :=
      ⟨⟨key, rfl⟩, .text text, by cases left <;> rfl⟩
    simp only [Node.whole_object, List.forall_mem_cons, htext, true_and]
  | member h ih =>
    refine Node.whole_congr rfl rfl (fun left => ?_) left
    simp only [Node.whole_object, List.forall_mem_cons, ih left]
  | item h ih =>
    refine Node.whole_congr rfl rfl (fun left => ?_) left
    simp only [Node.whole_array, List.forall_mem_append, List.forall_mem_cons, ih left]

mutual

/-- **A node without any fault is a document** that was found whole. What completing it returns is
that document, and so it is not read differently after it was kept. -/
theorem Node.eq_ofValue {left : Nat} {n : Node} {v : Value} (h : n.complete left = .ok v) :
    n = .ofValue v := by
  match left, n with
  | left, .null => cases left <;> (cases h; rfl)
  | left, .bool b => cases left <;> (cases h; rfl)
  | left, .number i => cases left <;> (cases h; rfl)
  | left, .text s => cases left <;> (cases h; rfl)
  | 0, .array _ _ => cases h
  | left + 1, .array items fault =>
    obtain ⟨vs, hvs, h⟩ := of_bind_eq_ok h
    obtain ⟨hfault, h⟩ := andThen_eq_ok.mp h
    cases h
    rw [checkFault_eq_ok.mp hfault, items_eq_ofValues hvs]
    rfl
  | 0, .object _ _ => cases h
  | left + 1, .object members fault =>
    obtain ⟨vs, hvs, h⟩ := of_bind_eq_ok h
    obtain ⟨hfault, h⟩ := andThen_eq_ok.mp h
    cases h
    rw [checkFault_eq_ok.mp hfault, members_eq_ofMembers hvs]
    rfl
  | left, .missing f => cases left <;> cases h
  | left, .badScalar read skip => cases left <;> cases h
  | left, .badText read skip => cases left <;> cases h

/-- The same of items. -/
theorem items_eq_ofValues {left : Nat} {items : List Node} {vs : List Value}
    (h : completeItems left items = .ok vs) : items = nodesOfValues vs := by
  match items with
  | [] =>
    cases h
    rfl
  | item :: items =>
    obtain ⟨v, hv, h⟩ := of_bind_eq_ok h
    obtain ⟨others, hothers, h⟩ := of_bind_eq_ok h
    cases h
    rw [nodesOfValues, ← Node.eq_ofValue hv, ← items_eq_ofValues hothers]

/-- The same of members. -/
theorem members_eq_ofMembers {left : Nat} {members : List (Node × Node)}
    {vs : List (String × Value)} (h : completeMembers left members = .ok vs) :
    members = nodesOfMembers vs := by
  match members with
  | [] =>
    cases h
    rfl
  | (key, value) :: members =>
    obtain ⟨name, hname, h⟩ := of_bind_eq_ok h
    obtain ⟨v, hv, h⟩ := of_bind_eq_ok h
    obtain ⟨others, hothers, h⟩ := of_bind_eq_ok h
    cases h
    rw [nodesOfMembers, ← Node.eq_ofValue hv, ← members_eq_ofMembers hothers,
      keyText_eq_ok.mp hname]

end

/-! ### Decoders -/

theorem toOption_bind {ε : Type} (x : Except ε α) (f : α → Except ε β) :
    (x >>= f).toOption = x.toOption.bind fun a => (f a).toOption := by
  cases x <;> rfl

theorem eq_ok_congr {ε : Type} {x y : Except ε α} (h : x.toOption = y.toOption) (a : α) :
    x = .ok a ↔ y = .ok a := by
  have hsome (z : Except ε α) : z = .ok a ↔ z.toOption = some a := by
    cases z <;> simp [Except.toOption]
  rw [hsome, hsome, h]

/-- **What is read of documents that are one step apart is the same**, if anything is read of them.
-/
def Insensitive (p : Plan) (decode : Node → Except Error α) : Prop :=
  ∀ n n', Step p n n' → (decode n).toOption = (decode n').toOption

/-- A decoder that reads neither arrays nor objects is insensitive to any plan, for a change takes
place within one of these. -/
theorem insensitive_of_refuses {p : Plan} {decode : Node → Except Error α}
    (h : ∀ n : Node, n.isComposite = true → (decode n).toOption = none) : Insensitive p decode := by
  intro n n' hstep
  rw [h n hstep.composite.1, h n' hstep.composite.2]

theorem insensitive_decodeText {p : Plan} : Insensitive p decodeText :=
  insensitive_of_refuses fun n hn => by cases n <;> first | rfl | cases hn

theorem insensitive_decodeFloat {p : Plan} : Insensitive p decodeFloat :=
  insensitive_of_refuses fun n hn => by cases n <;> first | rfl | cases hn

theorem insensitive_decodeBool {p : Plan} : Insensitive p decodeBool :=
  insensitive_of_refuses fun n hn => by cases n <;> first | rfl | cases hn

/-- A decoder is as insensitive as what it begins with. -/
theorem Insensitive.bind {p : Plan} {decode : Node → Except Error α} (h : Insensitive p decode)
    (f : α → Except Error β) : Insensitive p fun n => decode n >>= f := by
  intro n n' hstep
  rw [toOption_bind, toOption_bind, h n n' hstep]

/-- An option is read where there is something, so it is as insensitive as what is read there.
Nothing is no array and no object, and cannot be arranged. -/
theorem Insensitive.option {p : Plan} {decode : Node → Except Error α} (h : Insensitive p decode) :
    Insensitive p (decodeOption decode) := by
  have hsome (n : Node) (hn : n.isComposite = true) :
      (decodeOption decode n).toOption = (decode n).toOption.map some := by
    cases n with
    | array items fault =>
      show ((decode _).map some).toOption = _
      cases decode (.array items fault) <;> rfl
    | object members fault =>
      show ((decode _).map some).toOption = _
      cases decode (.object members fault) <;> rfl
    | _ => cases hn
  intro n n' hstep
  rw [hsome n hstep.composite.1, hsome n' hstep.composite.2, h n n' hstep]

/-- **A list** is as insensitive as its items. -/
theorem Insensitive.list {p : Plan} {decode : Node → Except Error α} (h : Insensitive p decode)
    (left : Nat) : Insensitive (.list p) (decodeList decode left) := by
  intro n n' hstep
  cases hstep with
  | reorder _ => rfl
  | extra _ _ _ => rfl
  | member _ => rfl
  | @item _ before after v v' fault hv =>
    by_cases hleft : left = 0
    · simp only [decodeList, if_pos hleft]
    simp only [decodeList, if_neg hleft]
    -- on the items before the one that is changed, which are read alike
    induction before with
    | nil =>
      simp only [List.nil_append, decodeItems, toOption_bind]
      rw [h v v' hv]
    | cons item before ih =>
      simp only [List.cons_append, decodeItems, toOption_bind]
      rw [ih hv]

/-- **A decoder that reads objects with at most one member**, and of that one only what does not
depend on how it is arranged. Such an object cannot be reordered, and as a choice it admits no
further member. -/
theorem insensitive_of_single {decode : Node → Except Error α}
    (hlong : ∀ m m' members fault, (decode (.object (m :: m' :: members) fault)).toOption = none)
    (hsingle : ∀ key v v' fault, Step .choice v v' →
      (decode (.object [(.text key, v)] fault)).toOption =
        (decode (.object [(.text key, v')] fault)).toOption)
    (harray : ∀ items fault, (decode (.array items fault)).toOption = none) :
    Insensitive .choice decode := by
  intro n n' hstep
  cases hstep with
  | @reorder _ members members' fault hperm =>
    -- one member cannot be reordered, and more are refused in any order
    match members, members' with
    | [], ms' => rw [List.nil_perm.mp hperm]
    | [m], ms' => rw [List.singleton_perm.mp hperm]
    | m₁ :: m₂ :: members, [] => exact absurd hperm.length_eq (by simp)
    | m₁ :: m₂ :: members, [m'] => exact absurd hperm.length_eq (by simp)
    | m₁ :: m₂ :: members, m₁' :: m₂' :: members' => rw [hlong, hlong]
  | extra _ _ h => cases h
  | @member _ key v v' members fault hv =>
    match members with
    | [] => exact hsingle key v v' fault hv
    | m :: members => rw [hlong, hlong]
  | item _ => rw [harray, harray]

theorem insensitive_decodeUnit {p : Plan} : Insensitive p decodeUnit :=
  insensitive_of_refuses fun n hn => by cases n <;> first | rfl | cases hn

/-- **A choice** does not see how its object is arranged, which has one member. -/
theorem insensitive_decodeVariant {known : List (String × α)} (left : Nat) :
    Insensitive .choice (decodeVariant known left) := by
  cases left with
  | zero => exact insensitive_of_single (fun _ _ _ _ => rfl) (fun _ _ _ _ _ => rfl) fun _ _ => rfl
  | succ left =>
    refine insensitive_of_single (fun m m' members fault => ?_) (fun key v v' fault hv => ?_)
      fun _ _ => rfl
    · simp only [decodeVariant, Nat.add_one_ne_zero, if_false, toOption_bind]
      simp [malformed, Except.toOption]
    · simp only [decodeVariant, Nat.add_one_ne_zero, if_false, toOption_bind,
        insensitive_decodeUnit v v' hv]

/-! ### Records -/

/-- Filling in a field that is not filled in yet. A field that is filled in twice is refused. -/
def RecordField.fillIn (f : RecordField σ) (v : Node) (s : σ) : Option σ :=
  if f.filled s then none else (f.decode v s).toOption

/-- **Two fields do not interfere with each other** if the two can be filled in in either order,
from whatever values, and with the same outcome. -/
def RecordField.Apart (f g : RecordField σ) : Prop :=
  ∀ v w s, (f.fillIn v s).bind (g.fillIn w) = (g.fillIn w s).bind (f.fillIn v)

instance : Std.Symm (RecordField.Apart : RecordField σ → RecordField σ → Prop) where
  symm _ _ h v w s := (h w v s).symm

/-- **Fields of different parts** do not interfere with each other. Each reads its own value and
puts what it reads in its own part, so the one does not see whether the other was filled in. -/
theorem RecordField.Apart.of_parts {f g : RecordField σ} {read : Node → Except Error α}
    {read' : Node → Except Error β} {put : α → σ → σ} {put' : β → σ → σ}
    (hf : ∀ v s, f.decode v s = read v >>= fun a => pure (put a s))
    (hg : ∀ v s, g.decode v s = read' v >>= fun b => pure (put' b s))
    (hcomm : ∀ a b s, put' b (put a s) = put a (put' b s))
    (hfg : ∀ a s, g.filled (put a s) = g.filled s) (hgf : ∀ b s, f.filled (put' b s) = f.filled s) :
    f.Apart g := by
  intro v w s
  unfold RecordField.fillIn
  -- where one of the fields refuses, it does so in either order
  cases hfilled : f.filled s <;> cases hfilled' : g.filled s <;> cases hv : read v <;>
    cases hw : read' w <;>
    simp [hf, hg, hv, hw, hfilled, hfilled', hfg, hgf, hcomm, bind, Except.bind, pure, Except.pure,
      Except.toOption]

/-- **A field with its plan**: it stands under that name only, is filled in by what it reads, and
reads it as the plan says. -/
structure RecordField.Reads (f : RecordField σ) (entry : String × Plan) : Prop where
  name : f.name = entry.1
  aliases : f.aliases = []
  once : ∀ v s t, f.decode v s = .ok t → f.filled t = true
  insensitive : ∀ s, Insensitive entry.2 fun v => f.decode v s

/-- A field of a part has its plan, if what it reads is insensitive to it. -/
theorem RecordField.Reads.of_part {f : RecordField σ} {entry : String × Plan}
    {read : Node → Except Error α} {put : α → σ → σ} (hname : f.name = entry.1)
    (haliases : f.aliases = []) (hf : ∀ v s, f.decode v s = read v >>= fun a => pure (put a s))
    (hput : ∀ a s, f.filled (put a s) = true) (hread : Insensitive entry.2 read) :
    f.Reads entry where
  name := hname
  aliases := haliases
  once v s t h := by
    rw [hf] at h
    obtain ⟨a, -, h⟩ := of_bind_eq_ok h
    cases h
    exact hput a s
  insensitive s := by
    simp only [hf]
    exact hread.bind _

namespace Shape

/-- **A record whose fields do not interfere with each other**, each with its plan. -/
structure Orderly (shape : Shape σ) (plans : List (String × Plan)) : Prop where
  apart : shape.fields.Pairwise RecordField.Apart
  reads : List.Forall₂ RecordField.Reads shape.fields plans

/-- **One member of a record**: it fills in the field that its key names, or is passed over if there
is none. -/
def takeMember (shape : Shape σ) (m : Node × Node) (s : σ) : Option σ :=
  m.1.keyText.toOption.bind fun name =>
    match shape.field? name with
    | some f => f.fillIn m.2 s
    | none => m.2.skip.toOption.map fun _ => s

/-- The members of a record are taken one by one, and a member that cannot be taken refuses them
all. -/
theorem decodeMembers_cons (shape : Shape σ) (m : Node × Node) (members : List (Node × Node))
    (s : σ) : (shape.decodeMembers (m :: members) s).toOption =
      (shape.takeMember m s).bind fun t => (shape.decodeMembers members t).toOption := by
  obtain ⟨key, value⟩ := m
  have horFault {γ : Type} (x : Except Fault γ) : (orFault x).toOption = x.toOption := by
    cases x <;> rfl
  rw [decodeMembers, toOption_bind, horFault, takeMember, Option.bind_assoc]
  congr 1
  funext name
  -- the key names a field, or an unknown member is passed over
  cases hfield : shape.field? name with
  | some f =>
    simp only [RecordField.fillIn]
    by_cases hfilled : f.filled s = true
    · simp [hfilled, fail, Except.toOption]
    · simp [hfilled, toOption_bind]
  | none =>
    simp only [toOption_bind, horFault]
    cases value.skip.toOption <;> rfl

variable {shape : Shape σ} {plans : List (String × Plan)}

/-- **The field that a key names** is the one that has its plan. Names are told apart by the plans,
in which no name has another spelling. -/
theorem Orderly.field?_cases (h : shape.Orderly plans) (key : String) :
    (∃ f p, shape.field? key = some f ∧ plans.lookup key = some p ∧ f ∈ shape.fields ∧
      f.Reads (key, p)) ∨
    (shape.field? key = none ∧ plans.lookup key = none) := by
  unfold field?
  have hreads := h.reads
  clear h
  generalize shape.fields = fields at hreads ⊢
  -- on the fields with their plans, of which the two searches stop at the same one
  induction hreads with
  | nil => exact .inr ⟨rfl, rfl⟩
  | @cons f entry fields plans hf _ ih =>
    obtain ⟨name, p⟩ := entry
    have hname : f.name = name := hf.name
    by_cases hkey : name = key
    · subst hkey
      refine .inl ⟨f, p, ?_, ?_, List.mem_cons_self, hf⟩
      · simp [hname]
      · simp
    · have hfield : (f :: fields).find? (fun g => g.name = key || g.aliases.contains key) =
          fields.find? fun g => g.name = key || g.aliases.contains key := by
        simp [hname, hkey, hf.aliases]
      have hlookup : ((name, p) :: plans).lookup key = plans.lookup key := by
        have : (key == name) = false := by simpa using Ne.symm hkey
        simp [List.lookup_cons, this]
      rw [hfield, hlookup]
      rcases ih with ⟨g, q, hg, hq, hmem, hreads⟩ | hnone
      · exact .inl ⟨g, q, hg, hq, List.mem_cons_of_mem f hmem, hreads⟩
      · exact .inr hnone

/-- What a member does under a key that names a field. -/
theorem takeMember_field {name : String} {f : RecordField σ} (h : shape.field? name = some f)
    (v : Node) : shape.takeMember (.text name, v) = f.fillIn v := by
  funext s
  show (match shape.field? name with | some f => f.fillIn v s | none => _) = _
  rw [h]

/-- What a member does under an unknown key. -/
theorem takeMember_unknown {name : String} (h : shape.field? name = none) (v : Node) :
    shape.takeMember (.text name, v) = fun s => v.skip.toOption.map fun _ => s := by
  funext s
  show (match shape.field? name with | some f => _ | none => _) = _
  rw [h]

/-- Whatever has no text for its key is refused. -/
theorem takeMember_of_not_text {key : Node} (h : ¬∃ name, key = .text name) (v : Node) :
    shape.takeMember (key, v) = fun _ => none := by
  funext s
  cases key <;> first | rfl | exact absurd ⟨_, rfl⟩ h

/-- **Two fields of a record**, the same one or different ones, can be filled in in any order. -/
theorem Orderly.fillIn_comm (h : shape.Orderly plans) {f g : RecordField σ} (hf : f ∈ shape.fields)
    (hg : g ∈ shape.fields) {entry : String × Plan} (hreads : f.Reads entry) (v w : Node) (s : σ) :
    (f.fillIn v s).bind (g.fillIn w) = (g.fillIn w s).bind (f.fillIn v) := by
  by_cases hsame : f = g
  · subst hsame
    -- a field is filled in once
    have htwice (v w : Node) : (f.fillIn v s).bind (f.fillIn w) = none := by
      by_cases hfilled : f.filled s = true
      · simp [RecordField.fillIn, hfilled]
      · cases hd : f.decode v s with
        | error e => simp [RecordField.fillIn, hd, Except.toOption]
        | ok t => simp [RecordField.fillIn, hfilled, hd, hreads.once v s t hd, Except.toOption]
    rw [htwice, htwice]
  · exact h.apart.forall hf hg hsame v w s

/-- **Two members of a record can change places.** If both name fields, the fields do not interfere
with each other; a member that is passed over changes nothing; and one without a text for its key
refuses the record in either place. -/
theorem Orderly.takeMember_comm (h : shape.Orderly plans) (m m' : Node × Node) (s : σ) :
    (shape.takeMember m s).bind (shape.takeMember m') =
      (shape.takeMember m' s).bind (shape.takeMember m) := by
  -- a member that is passed over changes nothing, wherever it stands
  have hpassed (x : Option Unit) (m : Node × Node) :
      ((shape.takeMember m s).bind fun t => x.map fun _ => t) =
        (x.map fun _ => s).bind (shape.takeMember m) := by
    cases x <;> simp
  obtain ⟨key, v⟩ := m
  obtain ⟨key', v'⟩ := m'
  by_cases hkey : ∃ name, key = .text name
  · obtain ⟨name, rfl⟩ := hkey
    by_cases hkey' : ∃ name, key' = .text name
    · obtain ⟨name', rfl⟩ := hkey'
      -- two keys that are texts: each names a field or none
      rcases h.field?_cases name with ⟨f, p, hf, -, hmem, hreads⟩ | ⟨hf, -⟩
      · rcases h.field?_cases name' with ⟨g, -, hg, -, hmem', -⟩ | ⟨hg, -⟩
        · rw [takeMember_field hf, takeMember_field hg]
          exact h.fillIn_comm hmem hmem' hreads v v' s
        · rw [takeMember_unknown hg]
          exact hpassed _ _
      · rw [takeMember_unknown hf]
        exact (hpassed _ _).symm
    · rw [takeMember_of_not_text hkey']
      exact Option.bind_fun_none _
  · rw [takeMember_of_not_text hkey]
    exact (Option.bind_fun_none _).symm

/-- **The order of the members** does not matter for a record. Any order comes from any other one by
members that change places with the next. -/
theorem Orderly.decodeMembers_perm (h : shape.Orderly plans) {members members' : List (Node × Node)}
    (hperm : members.Perm members') (s : σ) :
    (shape.decodeMembers members s).toOption = (shape.decodeMembers members' s).toOption := by
  induction hperm generalizing s with
  | nil => rfl
  | cons m _ ih => simp only [decodeMembers_cons, ih]
  | swap m m' members =>
    simp only [decodeMembers_cons, ← Option.bind_assoc, h.takeMember_comm]
  | trans _ _ ih ih' => rw [ih, ih']

/-- **A member** does not matter but for what is read of it: a field reads it as its plan says, and
an unknown one is only passed over. -/
theorem Orderly.takeMember_step (h : shape.Orderly plans) {key : String} {v v' : Node}
    (hv : Step ((Plan.record plans).member key) v v') (s : σ) :
    shape.takeMember (.text key, v) s = shape.takeMember (.text key, v') s := by
  rcases h.field?_cases key with ⟨f, p, hf, hp, -, hreads⟩ | ⟨hf, -⟩
  · have hplan : (Plan.record plans).member key = p := by
      rw [Plan.member, hp]
      rfl
    rw [takeMember_field hf, takeMember_field hf, RecordField.fillIn, RecordField.fillIn,
      hreads.insensitive s v v' (hplan ▸ hv)]
  · have hskip : v.skip.toOption = v'.skip.toOption := by
      have := hv.skip
      cases hs : v.skip <;> cases hs' : v'.skip <;> simp_all [Except.toOption]
    rw [takeMember_unknown hf, takeMember_unknown hf, hskip]

/-- **The members of a record** do not matter but for what is read of them. There is one case for
each change that an object can undergo. -/
theorem Orderly.decodeMembers_step (h : shape.Orderly plans) {members members' : List (Node × Node)}
    {fault fault' : Option Fault}
    (hstep : Step (.record plans) (.object members fault) (.object members' fault')) (s : σ) :
    (shape.decodeMembers members s).toOption = (shape.decodeMembers members' s).toOption := by
  cases hstep with
  | reorder hperm => exact h.decodeMembers_perm hperm s
  | extra key text hkey =>
    rcases h.field?_cases key with ⟨f, p, -, hp, -, -⟩ | ⟨hf, -⟩
    -- a member is not added under the key of a field
    · simp [Plan.admits, hp] at hkey
    · rw [decodeMembers_cons, takeMember_unknown hf]
      rfl
  | member hv => rw [decodeMembers_cons, decodeMembers_cons, h.takeMember_step hv]

/-- **The items of a record** do not matter but for what is read of them. Fields and items are gone
through together, up to the item that is changed. -/
theorem decodeElements_step {fields : List (RecordField σ)}
    (h : List.Forall₂ RecordField.Reads fields plans) {before after : List Node} {v v' : Node}
    (hv : Step ((Plan.record plans).item before.length) v v') (fault : Option Fault) (count : Nat)
    (s : σ) :
    (shape.decodeElements fault fields count (before ++ v :: after) s).toOption =
      (shape.decodeElements fault fields count (before ++ v' :: after) s).toOption := by
  induction h generalizing before count s with
  | nil => cases before <;> rfl
  | @cons f entry fields plans hf _ ih =>
    cases before with
    | nil =>
      simp only [List.nil_append, decodeElements, toOption_bind]
      rw [hf.insensitive s v v' hv]
    | cons item before =>
      simp only [List.cons_append, decodeElements, toOption_bind]
      congr 1
      funext t
      exact ih hv (count + 1) t

/-- **What is read of a record** does not depend on how it is arranged, in either of the two forms
in which a record can be written. -/
theorem Orderly.insensitive (h : shape.Orderly plans) (left : Nat) :
    Insensitive (.record plans) (shape.decode left) := by
  intro n n' hstep
  -- where nothing may be opened any more, both are refused
  by_cases hleft : left = 0
  · subst hleft
    cases hstep <;> rfl
  rcases hstep.forms with ⟨members, members', fault, rfl, rfl⟩ | ⟨items, items', fault, rfl, rfl⟩
  · simp only [decode, if_neg hleft, toOption_bind]
    rw [h.decodeMembers_step hstep]
  · cases hstep with
    | item hv =>
      simp only [decode, if_neg hleft]
      exact decodeElements_step h.reads hv fault 0 shape.blank

end Shape

/-! ### Texts -/

/-- **Rearranged texts**: what is found in them is rearranged, and both are at an end after it or
neither is. Blanks between the parts do not count, as they are not found. -/
structure Resembles (p : Plan) (source source' : String) : Prop where
  root : Rearranged p (read source).root (read source').root
  trailing : (read source).trailing = (read source').trailing

/-- A thing is read of a text if it is read of what is found in it and nothing follows. -/
theorem decodeSource_eq_ok {decode : Nat → Node → Except Error α} {source : String} {a : α} :
    decodeSource decode source = .ok a ↔
      decode depthLimit (read source).root = .ok a ∧ (read source).trailing = false := by
  show (decode depthLimit (read source).root >>= fun a =>
    if (read source).trailing then malformed else pure a) = _ ↔ _
  cases decode depthLimit (read source).root with
  | error e => exact iff_of_false nofun fun h => nomatch h.1
  | ok b => cases (read source).trailing <;> simp [bind, Except.bind, pure, Except.pure, malformed]

/-- What is read of documents that are one step apart is read of rearranged texts. Steps lead forth
and back, so this is an equivalence all along the way. -/
theorem Resembles.decodeSource_iff {p : Plan} {decode : Nat → Node → Except Error α} {a : α}
    {source source' : String} (h : Resembles p source source')
    (hsteps : ∀ n n', Step p n n' → (decode depthLimit n = .ok a ↔ decode depthLimit n' = .ok a)) :
    decodeSource decode source = .ok a ↔ decodeSource decode source' = .ok a := by
  have hroots {n n' : Node} (hn : Rearranged p n n') :
      decode depthLimit n = .ok a ↔ decode depthLimit n' = .ok a := by
    induction hn with
    | rel n n' hstep => exact hsteps n n' hstep
    | refl n => rfl
    | symm n n' _ ih => exact ih.symm
    | trans n n' n'' _ _ ih ih' => exact ih.trans ih'
  rw [decodeSource_eq_ok, decodeSource_eq_ok, hroots h.root, h.trailing]

/-- **What is read of a text** does not depend on how it is arranged, if the decoder is insensitive
at the depth where reading begins. -/
theorem Insensitive.decodeSource_iff {p : Plan} {decode : Nat → Node → Except Error α}
    (h : Insensitive p (decode depthLimit)) {source source' : String}
    (hsource : Resembles p source source') (a : α) :
    decodeSource decode source = .ok a ↔ decodeSource decode source' = .ok a :=
  hsource.decodeSource_iff fun n n' hstep => eq_ok_congr (h n n' hstep) a

end StagePlay.Json
