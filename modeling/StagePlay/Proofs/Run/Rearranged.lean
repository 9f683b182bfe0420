import StagePlay.Proofs.Json.Rearranged
import StagePlay.Run.Codec

/-!
# Rearranged events

What is read of an event does not depend on the order of its keys nor on members that its kind does
not know (`Event.decode_step`). Its type may stand anywhere among them, and the other members are kept
until it is known. So an event is read in two parts (`Event.Parts`): the one member that says the
type, and the record that the others make, which is read as the fields of that type
(`Event.decode_iff`).

Which members a kind of event knows differs from kind to kind, and so does the plan of the event
(`Event.plan`).
-/

namespace StagePlay

open Json

/-- What is read of an outcome does not depend on how it is arranged. As it is the name of a choice,
there is little to arrange: no member can be added to it. -/
theorem Outcome.insensitive_decode (left : Nat) : Insensitive .choice (decode left) :=
  insensitive_decodeVariant left

namespace Event

/-! ### Fields -/

/-- The kind of an event. -/
def kind {ρ : Type} : Event ρ → Kind
  | .runStarted _ => .runStarted
  | .noStartBlock => .noStartBlock
  | .unknownOperation _ _ => .unknownOperation
  | .runFinished _ _ => .runFinished

/-- How the fields of a kind of event can be arranged. The outcome is a choice, in which nothing may
be added; the other fields are plain texts. -/
def fieldPlans : Kind → List (String × Plan)
  | .runStarted => [("run_id", .free)]
  | .noStartBlock => []
  | .unknownOperation => [("block", .free), ("kind", .free)]
  | .runFinished => [("run_id", .free), ("outcome", .choice)]

/-- **How an event can be arranged**, the type among its fields. Which keys are known depends on the
kind, so an added member is only harmless beside the kind of event that does not know its key. -/
def plan (kind : Kind) : Plan := .record (("type", .free) :: fieldPlans kind)

theorem insensitive_decodeRun {p : Plan} : Insensitive p decodeRun :=
  insensitive_of_refuses fun n hn => by cases n <;> first | rfl | cases hn

/-- Nothing is an object without members, which stays as it is: there are no members to change
places, and the plan of a choice admits no others. -/
theorem insensitive_decodeNothing : Insensitive .choice decodeNothing := by
  intro n n' hstep
  cases hstep with
  | @reorder _ members members' fault hperm =>
    match members, members' with
    | [], ms' => rw [List.nil_perm.mp hperm]
    | m :: ms, [] => exact absurd hperm.length_eq (by simp)
    | m :: ms, m' :: ms' => rfl
  | extra _ _ h => cases h
  | member _ => rfl
  | item _ => rfl

/-- What is read of an outcome as a field of an event does not depend on how it is arranged, neither
as a name nor as an object with that name for its key. -/
theorem insensitive_decodeOutcome : Insensitive .choice decodeOutcome := by
  refine insensitive_of_single (fun _ _ _ _ => rfl) (fun key v v' fault hv => ?_) fun _ _ => rfl
  cases fault with
  | some f => rfl
  | none => simp only [decodeOutcome, toOption_bind, insensitive_decodeNothing v v' hv]

/-- **The fields of an event** do not interfere with each other: each fills its own part of the
draft, whatever stands there already, and each can be arranged as its plan says. -/
theorem orderly (kind : Kind) : (shape kind).Orderly (fieldPlans kind) := by
  cases kind with
  | runStarted =>
    refine ⟨List.pairwise_singleton _ _, .cons ?_ .nil⟩
    exact .of_part rfl rfl (fun _ _ => rfl) (fun _ _ => rfl) insensitive_decodeRun
  | noStartBlock => exact ⟨.nil, .nil⟩
  | unknownOperation =>
    -- two fields: they fill different parts, and either can be read by itself
    refine ⟨List.pairwise_pair.mpr ?_, .cons ?_ (.cons ?_ .nil)⟩
    · exact .of_parts (fun _ _ => rfl) (fun _ _ => rfl) (fun _ _ _ => rfl) (fun _ _ => rfl)
        fun _ _ => rfl
    · exact .of_part rfl rfl (fun _ _ => rfl) (fun _ _ => rfl) insensitive_decodeText
    · exact .of_part rfl rfl (fun _ _ => rfl) (fun _ _ => rfl) insensitive_decodeText
  | runFinished =>
    refine ⟨List.pairwise_pair.mpr ?_, .cons ?_ (.cons ?_ .nil)⟩
    · exact .of_parts (fun _ _ => rfl) (fun _ _ => rfl) (fun _ _ _ => rfl) (fun _ _ => rfl)
        fun _ _ => rfl
    · exact .of_part rfl rfl (fun _ _ => rfl) (fun _ _ => rfl) insensitive_decodeRun
    · exact .of_part rfl rfl (fun _ _ => rfl) (fun _ _ => rfl) insensitive_decodeOutcome

/-- Reading the fields of a kind of event from what stands beside the type. All fields have to be
there for the event to be made. -/
def ofNode (kind : Kind) (node : Node) : Except Error (Event Uuid) := do
  let d ← (shape kind).decode 1 node
  match d.event? kind with
  | some e => pure e
  | none => malformed

theorem insensitive_ofNode (kind : Kind) :
    Insensitive (.record (fieldPlans kind)) (ofNode kind) :=
  ((orderly kind).insensitive 1).bind _

/-- What stands beside the type, as it is found. -/
def Rest.node : Rest → Node
  | .members ms => .object (nodesOfMembers ms) none
  | .items vs => .array (nodesOfValues vs) none

/-- All fields of a kind are required, so none of them can be left out of an array at its end. -/
theorem required (kind : Kind) : ∀ f ∈ (shape kind).fields, f.presence = .required := by
  cases kind <;> simp [shape, runField, blockField, kindField, outcomeField]

/-- Filling the fields from the items of an array is reading the array as a record. The errors may
differ, as one of the two counts what was expected; what is read does not. -/
theorem fillFromItems_eq (shape : Shape Draft) (name : String) (count length position : Nat)
    {fields : List (RecordField Draft)} (hfields : ∀ f ∈ fields, f.presence = .required)
    (vs : List Value) (d : Draft) :
    (fillFromItems name count length fields vs d).toOption =
      (shape.decodeElements none fields position (nodesOfValues vs) d).toOption := by
  induction fields generalizing vs d position with
  | nil => cases vs <;> rfl
  | cons f fields ih =>
    obtain ⟨hf, hothers⟩ := List.forall_mem_cons.mp hfields
    cases vs with
    | nil =>
      simp [fillFromItems, nodesOfValues, Shape.decodeElements, hf, fail, checkFault, orFault, pure,
        Except.pure, bind, Except.bind, Except.toOption]
    | cons v vs =>
      simp only [fillFromItems, nodesOfValues, Shape.decodeElements, toOption_bind]
      congr 1
      funext d'
      exact ih (position + 1) hothers vs d'

/-- **The rest of an event** is read as a record of its fields, whether the event was an object or
an array. -/
theorem ofRest_eq (kind : Kind) (rest : Rest) :
    (ofRest kind rest).toOption = (ofNode kind rest.node).toOption := by
  have hfill : (fill kind rest).toOption = ((shape kind).decode 1 rest.node).toOption := by
    cases rest with
    | members ms => rfl
    | items vs => exact fillFromItems_eq (shape kind) _ _ _ 0 (required kind) vs _
  show (fill kind rest >>= _).toOption = _
  rw [toOption_bind, hfill]
  exact (toOption_bind _ _).symm

theorem kind_of_event? {d : Draft} {kind : Kind} {e : Event Uuid} (h : d.event? kind = some e) :
    e.kind = kind := by
  obtain ⟨run, block, text, outcome⟩ := d
  cases kind with
  | runStarted =>
    obtain ⟨r, -, rfl⟩ := Option.map_eq_some_iff.mp h
    rfl
  | noStartBlock =>
    cases h
    rfl
  | unknownOperation =>
    obtain ⟨b, -, h⟩ := Option.bind_eq_some_iff.mp h
    obtain ⟨k, -, h⟩ := Option.bind_eq_some_iff.mp h
    cases h
    rfl
  | runFinished =>
    obtain ⟨r, -, h⟩ := Option.bind_eq_some_iff.mp h
    obtain ⟨o, -, h⟩ := Option.bind_eq_some_iff.mp h
    cases h
    rfl

/-- What is read of the fields of a kind is an event of that kind. -/
theorem kind_of_ofNode {kind : Kind} {node : Node} {e : Event Uuid} (h : ofNode kind node = .ok e) :
    e.kind = kind := by
  obtain ⟨d, -, h⟩ := of_bind_eq_ok h
  split at h
  · next e' hevent =>
    cases h
    exact kind_of_event? hevent
  · cases h

/-! ### The type and the rest -/

/-- Whether a member says the type of the event. -/
def isTag (m : Node × Node) : Bool := m.1.keyText.toOption == some "type"

/-- The values under the key of the type. -/
def tags (members : List (Node × Node)) : List Node := (members.filter isTag).map Prod.snd

/-- The other members. -/
def others (members : List (Node × Node)) : List (Node × Node) := members.filter fun m => !isTag m

/-- The kind that a type names. -/
def kindOf (tag : Node) : Except Error Kind := decodeName tag >>= lookupVariant kinds

theorem tags_type (v : Node) (members : List (Node × Node)) :
    tags ((.text "type", v) :: members) = v :: tags members := rfl

theorem others_type (v : Node) (members : List (Node × Node)) :
    others ((.text "type", v) :: members) = others members := rfl

theorem isTag_eq_false {key : Node} (h : key ≠ .text "type") (v : Node) :
    isTag (key, v) = false := by
  refine beq_eq_false_iff_ne.mpr fun heq => h ?_
  dsimp only at heq
  cases hkey : key.keyText with
  | error f =>
    rw [hkey] at heq
    cases heq
  | ok name =>
    rw [hkey] at heq
    cases heq
    exact keyText_eq_ok.mp hkey

theorem tags_other {m : Node × Node} (h : isTag m = false) (members : List (Node × Node)) :
    tags (m :: members) = tags members := by
  rw [tags, List.filter_cons_of_neg (by simp [h])]
  rfl

theorem others_other {m : Node × Node} (h : isTag m = false) (members : List (Node × Node)) :
    others (m :: members) = m :: others members := by
  rw [others, List.filter_cons_of_pos (by simp [h])]
  rfl

theorem splitMembers_type (left : Nat) (fault : Option Fault) (kept : List (String × Value)) (v : Node)
    (members : List (Node × Node)) :
    splitMembers left fault none kept ((.text "type", v) :: members) =
      (kindOf v >>= fun kind => splitMembers left fault (some kind) kept members) := by
  show (decodeName v >>= fun tag => lookupVariant kinds tag >>= fun kind => _) = _
  rw [kindOf]
  cases decodeName v <;> rfl

theorem splitMembers_other (left : Nat) (fault : Option Fault) (kind? : Option Kind)
    (kept : List (String × Value)) {name : String} (h : Node.text name ≠ .text "type") (v : Node)
    (members : List (Node × Node)) :
    splitMembers left fault kind? kept ((.text name, v) :: members) =
      (orFault (v.complete left) >>= fun value =>
        splitMembers left fault kind? ((name, value) :: kept) members) := by
  show (if name = "type" then _ else _) = _
  rw [if_neg fun heq => h (congrArg Node.text heq)]

/-- A key that is no text is refused on its way to the type, so an event that is read has none. -/
theorem splitMembers_ne_ok {left : Nat} {fault : Option Fault} {kind? : Option Kind}
    {kept : List (String × Value)} {key v : Node} {members : List (Node × Node)}
    {x : Kind × List (String × Value)} (hkey : ¬∃ name, key = .text name) :
    splitMembers left fault kind? kept ((key, v) :: members) ≠ .ok x := by
  intro h
  obtain ⟨name, hname, -⟩ := of_bind_eq_ok h
  exact hkey ⟨name, keyText_eq_ok.mp (of_orFault_eq_ok hname)⟩

/-- **Members without fault**, the first of which is not the type. -/
theorem completeMembers_others_cons {left : Nat} {key v : Node} {members : List (Node × Node)}
    {rest : List (String × Value)} (htag : isTag (key, v) = false) :
    completeMembers left (others ((key, v) :: members)) = .ok rest ↔ ∃ name value vs,
      key = .text name ∧ v.complete left = .ok value ∧
        completeMembers left (others members) = .ok vs ∧ rest = (name, value) :: vs := by
  rw [others_other htag, completeMembers]
  constructor
  · intro h
    obtain ⟨name, hname, h⟩ := of_bind_eq_ok h
    obtain ⟨value, hvalue, h⟩ := of_bind_eq_ok h
    obtain ⟨vs, hvs, h⟩ := of_bind_eq_ok h
    cases h
    exact ⟨name, value, vs, keyText_eq_ok.mp hname, hvalue, hvs, rfl⟩
  · rintro ⟨name, value, vs, rfl, hvalue, hvs, rfl⟩
    rw [keyText_eq_ok.mpr rfl, hvalue, hvs]
    rfl

/-- **Taking an object apart**: there is one member with the type, besides the type that is known
from before, and the others are without fault. A second type is refused, even if it says the same.
-/
theorem splitMembers_eq_ok {left : Nat} {fault : Option Fault} {members : List (Node × Node)}
    {kind? : Option Kind} {kept : List (String × Value)} {kind : Kind} {ms : List (String × Value)} :
    splitMembers left fault kind? kept members = .ok (kind, ms) ↔
      fault = none ∧ kind?.toList.map .ok ++ (tags members).map kindOf = [.ok kind] ∧
      ∃ rest, completeMembers left (others members) = .ok rest ∧ ms = kept.reverse ++ rest := by
  -- what is kept and the type that is known grow on the way
  induction members generalizing kind? kept with
  | nil =>
    cases fault with
    -- the text broke off in this object
    | some f => exact iff_of_false error_ne_ok fun h => Option.some_ne_none f h.1
    | none =>
      cases kind? with
      | none => exact iff_of_false error_ne_ok fun h => List.cons_ne_nil _ _ h.2.1.symm
      | some k =>
        simp [splitMembers, tags, others, completeMembers, checkFault, orFault, bind, Except.bind,
          pure, Except.pure, eq_comm]
  | cons m members ih =>
    obtain ⟨key, v⟩ := m
    by_cases htype : key = .text "type"
    -- a member with the type: it has to be the first one, and to name a kind
    · subst htype
      rw [tags_type, others_type, List.map_cons]
      cases kind? with
      | some k =>
        exact iff_of_false error_ne_ok fun h =>
          List.cons_ne_nil _ _ (List.tail_eq_of_cons_eq h.2.1)
      | none =>
        rw [splitMembers_type]
        cases kindOf v with
        | error e =>
          exact iff_of_false error_ne_ok fun h => error_ne_ok (List.head_eq_of_cons_eq h.2.1)
        | ok k => exact ih
    · have htag := isTag_eq_false htype v
      rw [tags_other htag]
      simp only [completeMembers_others_cons htag]
      -- any other member is kept, if its key is a text and its value is whole
      by_cases hkey : ∃ name, key = .text name
      · obtain ⟨name, rfl⟩ := hkey
        rw [splitMembers_other _ _ _ _ htype]
        cases hvalue : v.complete left with
        | error f =>
          refine iff_of_false error_ne_ok ?_
          rintro ⟨-, -, rest, ⟨name', value, vs, -, heq, -⟩, -⟩
          exact error_ne_ok heq
        | ok value =>
          refine ih.trans (and_congr_right fun _ => and_congr_right fun _ => ?_)
          simp
      · refine iff_of_false (splitMembers_ne_ok hkey) ?_
        rintro ⟨-, -, rest, ⟨name, -, -, heq, -⟩, -⟩
        exact hkey ⟨name, heq⟩

/-- **The parts of an event**: the type, and a record of what stands beside it. In an array the type
is the first item. -/
inductive Parts : Node → Node → Node → Prop
  | object {members : List (Node × Node)} {tag : Node} (h : tags members = [tag]) :
      Parts (.object members none) tag (.object (others members) none)
  | array {tag : Node} {items : List Node} :
      Parts (.array (tag :: items) none) tag (.array items none)

theorem ofRest_eq_ok {kind : Kind} {rest : Rest} {e : Event Uuid} :
    ofRest kind rest = .ok e ↔ ofNode kind rest.node = .ok e := eq_ok_congr (ofRest_eq kind rest) e

/-- An event from an object: there is one type, what stands beside it is whole, and its fields are
read from there. -/
theorem decode_object_iff {left : Nat} {members : List (Node × Node)} {fault : Option Fault}
    {e : Event Uuid} :
    decode (left + 1) (.object members fault) = .ok e ↔ fault = none ∧ ∃ tag, tags members = [tag] ∧
      kindOf tag = .ok e.kind ∧ (Node.object (others members) none).Whole (left + 1) ∧
      ofNode e.kind (.object (others members) none) = .ok e := by
  constructor
  · intro h
    obtain ⟨⟨kind, ms⟩, hsplit, hrest⟩ := of_bind_eq_ok h
    obtain ⟨hfault, htags, rest, hothers, rfl⟩ := splitMembers_eq_ok.mp hsplit
    obtain ⟨tag, htag, hkind⟩ := List.map_eq_singleton_iff.mp htags
    have hread : ofNode kind (.object (others members) none) = .ok e := by
      rw [members_eq_ofMembers hothers]
      exact ofRest_eq_ok.mp hrest
    obtain rfl := kind_of_ofNode hread
    refine ⟨hfault, tag, htag, hkind, ?_, hread⟩
    exact Node.whole_object.mpr ⟨completeMembers_eq_ok.mp ⟨_, hothers⟩, rfl⟩
  · rintro ⟨rfl, tag, htag, hkind, hwhole, hread⟩
    obtain ⟨vs, hvs⟩ := completeMembers_eq_ok.mpr (Node.whole_object.mp hwhole).1
    have hsplit : splitMembers left none none [] members = .ok (e.kind, vs) := by
      refine splitMembers_eq_ok.mpr ⟨rfl, ?_, vs, hvs, rfl⟩
      rw [htag, List.map_singleton, hkind]
      rfl
    rw [members_eq_ofMembers hvs] at hread
    show (splitMembers left none none [] members >>= _) = _
    rw [hsplit]
    exact ofRest_eq_ok.mpr hread

/-- There is no event in an empty array. -/
theorem decode_nil_ne {left : Nat} {fault : Option Fault} {e : Event Uuid} :
    decode (left + 1) (.array [] fault) ≠ .ok e := by
  intro h
  obtain ⟨-, -, hfail⟩ := of_bind_eq_ok h
  cases hfail

/-- An event from an array, which begins with the type. The remaining items are its fields in their
order. -/
theorem decode_array_iff {left : Nat} {tag : Node} {rest : List Node} {fault : Option Fault}
    {e : Event Uuid} :
    decode (left + 1) (.array (tag :: rest) fault) = .ok e ↔ fault = none ∧
      kindOf tag = .ok e.kind ∧ (Node.array rest none).Whole (left + 1) ∧
      ofNode e.kind (.array rest none) = .ok e := by
  constructor
  · intro h
    obtain ⟨name, hname, h⟩ := of_bind_eq_ok h
    obtain ⟨kind, hkind, h⟩ := of_bind_eq_ok h
    obtain ⟨vs, hvs, h⟩ := of_bind_eq_ok h
    obtain ⟨⟨⟩, hfault, hrest⟩ := of_bind_eq_ok h
    have hvs := of_orFault_eq_ok hvs
    have hread : ofNode kind (.array rest none) = .ok e := by
      rw [items_eq_ofValues hvs]
      exact ofRest_eq_ok.mp hrest
    obtain rfl := kind_of_ofNode hread
    refine ⟨checkFault_eq_ok.mp (of_orFault_eq_ok hfault), ?_, ?_, hread⟩
    · rw [kindOf, hname]
      exact hkind
    · exact Node.whole_array.mpr ⟨completeItems_eq_ok.mp ⟨vs, hvs⟩, rfl⟩
  · rintro ⟨rfl, hkind, hwhole, hread⟩
    obtain ⟨vs, hvs⟩ := completeItems_eq_ok.mpr (Node.whole_array.mp hwhole).1
    obtain ⟨name, hname, hkind⟩ := of_bind_eq_ok hkind
    rw [items_eq_ofValues hvs] at hread
    show (decodeName tag >>= fun name => lookupVariant kinds name >>= fun kind =>
      orFault (completeItems left rest) >>= fun vs => _) = _
    rw [hname]
    show (lookupVariant kinds name >>= fun kind => _) = _
    rw [hkind, hvs]
    exact ofRest_eq_ok.mpr hread

/-- **What is read of an event**: the fields of its kind in what stands beside the type. Both forms
come to this, and what follows need not tell them apart. -/
theorem decode_iff {left : Nat} {n : Node} {e : Event Uuid} :
    decode (left + 1) n = .ok e ↔ ∃ tag rest, Parts n tag rest ∧ kindOf tag = .ok e.kind ∧
      rest.Whole (left + 1) ∧ ofNode e.kind rest = .ok e := by
  cases n with
  | object members fault =>
    rw [decode_object_iff]
    constructor
    · rintro ⟨rfl, tag, htag, hread⟩
      exact ⟨tag, _, .object htag, hread⟩
    · rintro ⟨tag, rest, hparts, hread⟩
      cases hparts with
      | object htag => exact ⟨rfl, tag, htag, hread⟩
  | array items fault =>
    cases items with
    | nil => exact iff_of_false decode_nil_ne fun ⟨_, _, hparts, _⟩ => nomatch hparts
    | cons tag rest =>
      rw [decode_array_iff]
      constructor
      · rintro ⟨rfl, hread⟩
        exact ⟨tag, _, .array, hread⟩
      · rintro ⟨tag, rest, hparts, hread⟩
        cases hparts with
        | array => exact ⟨rfl, hread⟩
  -- anything else is no event
  | _ => exact iff_of_false mismatch_ne_ok fun ⟨_, _, hparts, _⟩ => nomatch hparts

/-- A type is no array and no object. -/
theorem kindOf_composite {tag : Node} (h : tag.isComposite = true) {kind : Kind} :
    kindOf tag ≠ .ok kind := by
  intro hk
  obtain ⟨name, hname, -⟩ := of_bind_eq_ok hk
  cases tag with
  | text s => cases h
  | _ => exact mismatch_ne_ok hname

/-- **One change of an object** leaves a type alone that can be read, and changes the rest by a step
or not at all. The type itself may only change if it is an array or an object, and then it cannot be
read. -/
theorem object_step {kind : Kind} {members members' : List (Node × Node)} {fault fault' : Option Fault}
    (h : Step (plan kind) (.object members fault) (.object members' fault')) :
    (∀ tag k, kindOf tag = .ok k → (tags members = [tag] ↔ tags members' = [tag])) ∧
      (Node.object (others members) none = .object (others members') none ∨
        Step (.record (fieldPlans kind)) (.object (others members) none)
          (.object (others members') none)) := by
  have hplan {key : String} (hkey : key ≠ "type") :
      (("type", Plan.free) :: fieldPlans kind).lookup key = (fieldPlans kind).lookup key := by
    have : (key == "type") = false := by simpa using hkey
    simp [List.lookup_cons, this]
  cases h with
  | reorder hperm =>
    -- members change places: the type stays the only one, and the others change places among
    -- themselves
    have htags : (tags members).Perm (tags members') := (hperm.filter _).map _
    refine ⟨fun tag k _ => ⟨fun h => ?_, fun h => ?_⟩, .inr (.reorder (hperm.filter _))⟩
    · rw [h] at htags
      exact List.perm_singleton.mp htags.symm
    · rw [h] at htags
      exact List.perm_singleton.mp htags
  | extra key text hkey =>
    -- a member is added, under a key that this kind does not know
    have htype : key ≠ "type" := by
      rintro rfl
      cases hkey
    have hkeys : Node.text key ≠ .text "type" := fun h => htype (Node.text.inj h)
    rw [tags_other (isTag_eq_false hkeys _), others_other (isTag_eq_false hkeys _)]
    refine ⟨fun _ _ _ => Iff.rfl, .inr (.extra key text ?_)⟩
    rw [plan, Plan.admits, hplan htype] at hkey
    exact hkey
  | @member _ key v v' members _ hv =>
    by_cases htype : key = "type"
    · subst htype
      -- the type is no array and no object, so it is not read before and not read after
      refine ⟨fun tag k hk => iff_of_false (fun h => ?_) fun h => ?_, .inl rfl⟩
      · cases (List.cons.inj h).1
        exact kindOf_composite hv.composite.1 hk
      · cases (List.cons.inj h).1
        exact kindOf_composite hv.composite.2 hk
    -- a change inside another member is one of the rest
    · have hkeys : Node.text key ≠ .text "type" := fun h => htype (Node.text.inj h)
      rw [tags_other (isTag_eq_false hkeys _), others_other (isTag_eq_false hkeys _),
        tags_other (isTag_eq_false hkeys _), others_other (isTag_eq_false hkeys _)]
      refine ⟨fun _ _ _ => Iff.rfl, .inr (.member ?_)⟩
      rw [plan, Plan.member, hplan htype] at hv
      exact hv

/-- **What is read of an event** does not depend on how it is arranged: one change of the node
leaves the event that is read as it was. -/
theorem decode_step {left : Nat} {n n' : Node} {e : Event Uuid} (h : Step (plan e.kind) n n') :
    decode left n = .ok e ↔ decode left n' = .ok e := by
  cases left with
  -- too deeply nested, so nothing is read of either
  | zero => cases h <;> exact iff_of_false nofun nofun
  | succ left =>
    -- a step in what stands beside the type changes nothing that counts
    have hrest {rest rest' : Node}
        (hstep : rest = rest' ∨ Step (.record (fieldPlans e.kind)) rest rest') :
        (rest.Whole (left + 1) ∧ ofNode e.kind rest = .ok e) ↔
          (rest'.Whole (left + 1) ∧ ofNode e.kind rest' = .ok e) := by
      rcases hstep with rfl | hstep
      · rfl
      · exact and_congr (hstep.whole _)
          (eq_ok_congr (insensitive_ofNode e.kind rest rest' hstep) e)
    rcases h.forms with ⟨members, members', fault, rfl, rfl⟩ | ⟨_, _, fault, rfl, rfl⟩
    · obtain ⟨htags, hothers⟩ := object_step h
      rw [decode_object_iff, decode_object_iff]
      refine and_congr_right fun _ => exists_congr fun tag => ?_
      by_cases hkind : kindOf tag = .ok e.kind
      · exact and_congr (htags tag _ hkind) (and_congr_right fun _ => hrest hothers)
      · exact iff_of_false (fun h => hkind h.2.1) fun h => hkind h.2.1
    · cases h with
      | @item _ before after v v' _ hv =>
        cases before with
        | nil =>
          -- the type is no array and no object, so it is not read before and not read after
          rw [List.nil_append, List.nil_append, decode_array_iff, decode_array_iff]
          exact iff_of_false (fun h => kindOf_composite hv.composite.1 h.2.1)
            fun h => kindOf_composite hv.composite.2 h.2.1
        | cons tag before =>
          rw [List.cons_append, List.cons_append, decode_array_iff, decode_array_iff]
          exact and_congr_right fun _ => and_congr_right fun _ => hrest (.inr (.item hv))

/-- **What is read of a text as an event** does not depend on how the text is arranged. -/
theorem decodeSource_iff {e : Event Uuid} {source source' : String}
    (h : Resembles (plan e.kind) source source') :
    decodeSource decode source = .ok e ↔ decodeSource decode source' = .ok e :=
  h.decodeSource_iff fun _ _ hstep => decode_step hstep

end Event

end StagePlay
