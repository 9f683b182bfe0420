import StagePlay.Proofs.Json.Rearranged
import StagePlay.Stage.Codec

/-!
# Rearranged stages

What is read of a stage does not depend on the order of its keys, on any level, nor on members that
it does not know (`Stage.insensitive_decode`). All its parts but one are records whose fields do not
interfere with each other.

The exception is what is said, whose words are read in different ways, as they stand before or after
the manner. That it is read nevertheless just like a record of the two is `Speech.decode_object`.
-/

namespace StagePlay

open Json

/-! ### Backdrops and places -/

/-- How a backdrop can be arranged: its two keys may come in any order, and other members among
them. -/
def Backdrop.plan : Plan := .record [("imageRef", .free), ("name", .free)]

/-- What is read of a backdrop does not depend on how it is arranged. Its two fields are apart, and
each of them reads a text. -/
theorem Backdrop.insensitive_decode (left : Nat) : Insensitive plan (decode left) := by
  refine (Shape.Orderly.insensitive ⟨List.pairwise_pair.mpr ?_, ?_⟩ left).bind _
  · exact .of_parts (fun _ _ => rfl) (fun _ _ => rfl) (fun _ _ _ => rfl) (fun _ _ => rfl)
      fun _ _ => rfl
  · exact .cons (.of_part rfl rfl (fun _ _ => rfl) (fun _ _ => rfl) insensitive_decodeText)
      (.cons (.of_part rfl rfl (fun _ _ => rfl) (fun _ _ => rfl) insensitive_decodeText) .nil)

/-- How a place can be arranged: the two axes may come in either order. -/
def Point.plan : Plan := .record [("x", .free), ("y", .free)]

/-- What is read of a place does not depend on how it is arranged. -/
theorem Point.insensitive_decode (left : Nat) : Insensitive plan (decode left) := by
  refine (Shape.Orderly.insensitive ⟨List.pairwise_pair.mpr ?_, ?_⟩ left).bind _
  · exact .of_parts (fun _ _ => rfl) (fun _ _ => rfl) (fun _ _ _ => rfl) (fun _ _ => rfl)
      fun _ _ => rfl
  · exact .cons (.of_part rfl rfl (fun _ _ => rfl) (fun _ _ => rfl) insensitive_decodeFloat)
      (.cons (.of_part rfl rfl (fun _ _ => rfl) (fun _ _ => rfl) insensitive_decodeFloat) .nil)

/-! ### What is said -/

namespace Speech

/-- How what is said can be arranged. The manner is a choice, so that a key beside its name is
refused and must not be added. -/
def plan : Plan := .record [("kind", .choice), ("text", .free)]

/-- The manner and the words, or what is found in their place, as they are found. Either may be
missing until all the members have been read. -/
structure Draft where
  manner : Option Manner := none
  words : Option (Option String) := none

/-- **What is said as a record** of the manner and the words. It is not read in this way, since the
manner decides how the words are read; that it might as well be is what is shown here. -/
def shape (left : Nat) : Shape Draft where
  name := "Speech"
  fields :=
    [ { name := "kind", aliases := [], presence := .required, filled := fun d => d.manner.isSome,
        decode := fun node d => do
          let m ← decodeVariant manners left node; pure { d with manner := some m } },
      { name := "text", aliases := [], presence := .optional, filled := fun d => d.words.isSome,
        decode := fun node d => do
          let w ← decodeOption decodeText node; pure { d with words := some w } } ]
  blank := {}

/-- The two fields of that record do not interfere with each other, and neither reads more of its
value than it may. -/
theorem orderly (left : Nat) : (shape left).Orderly [("kind", .choice), ("text", .free)] where
  apart := List.pairwise_pair.mpr
    (.of_parts (fun _ _ => rfl) (fun _ _ => rfl) (fun _ _ _ => rfl) (fun _ _ => rfl) fun _ _ => rfl)
  reads := .cons
    (.of_part rfl rfl (fun _ _ => rfl) (fun _ _ => rfl) (insensitive_decodeVariant left))
    (.cons (.of_part rfl rfl (fun _ _ => rfl) (fun _ _ => rfl) insensitive_decodeText.option) .nil)

/-- What is said in a manner with words, or with nothing in their place. Silence has no words, and
the other manners cannot do without. -/
def Draft.speech? : Draft → Option Speech
  | ⟨some .silent, none⟩ => some .silent
  | ⟨some .silent, some none⟩ => some .silent
  | ⟨some .say, some (some s)⟩ => some (.say s)
  | ⟨some .think, some (some s)⟩ => some (.think s)
  | _ => none

/-- The words of a manner, whether they are read where they stand or after they were kept. Only
silence takes nothing for its words. -/
theorem decodeWords_eq (left : Nat) (manner : Manner) (words : Node) :
    (decodeWords left manner words).toOption =
      (decodeOption decodeText words).toOption.bind fun w =>
        Draft.speech? ⟨some manner, some w⟩ := by
  cases manner with
  | silent =>
    cases words with
    -- values that are no words are refused, at whatever depth they are
    | array items fault => cases left <;> rfl
    | object members fault => cases left <;> rfl
    | _ => rfl
  | say => cases words <;> rfl
  | think => cases words <;> rfl

/-- What is said in a manner without words. -/
theorem withoutWords_eq (manner : Manner) :
    (withoutWords manner).toOption = Draft.speech? ⟨some manner, none⟩ := by
  cases manner <;> rfl

/-- Words that are read are without fault, so they can be kept. -/
theorem whole_of_words {words : Node} {w : Option String}
    (h : (decodeOption decodeText words).toOption = some w) (left : Nat) : words.Whole left := by
  cases words with
  | null => exact ⟨.null, by cases left <;> rfl⟩
  | text s => exact ⟨.text s, by cases left <;> rfl⟩
  | _ => cases h

/-- **The members of what is said** are those of a record, up to the next one that counts. Keys that
are not known are passed over on both sides, so the induction is on the members before that one. -/
theorem decodeMembers_next (left : Nat) (members : List (Node × Node)) (d : Draft) :
    ((shape left).decodeMembers members d).toOption =
      (nextMember members).toOption.bind fun
        | none => some d
        | some (true, kind, rest) =>
          ((shape left).takeMember (.text "kind", kind) d).bind fun d' =>
            ((shape left).decodeMembers rest d').toOption
        | some (false, words, rest) =>
          ((shape left).takeMember (.text "text", words) d).bind fun d' =>
            ((shape left).decodeMembers rest d').toOption := by
  induction members with
  | nil => rfl
  | cons m members ih =>
    obtain ⟨key, value⟩ := m
    rw [Shape.decodeMembers_cons]
    by_cases hkey : ∃ name, key = .text name
    · obtain ⟨name, rfl⟩ := hkey
      by_cases hkind : name = "kind"
      · subst hkind
        rfl
      · by_cases htext : name = "text"
        · subst htext
          rfl
        · have hunknown : (shape left).field? name = none := by
            simp [Shape.field?, shape, Ne.symm hkind, Ne.symm htext]
          have hnext : nextMember ((.text name, value) :: members) =
              (orFault value.skip >>= fun _ => nextMember members) := by
            show (if name = "kind" then _ else if name = "text" then _ else _) = _
            rw [if_neg hkind, if_neg htext]
          -- an unknown key: both sides skip its value, and fail together if it has a fault
          rw [Shape.takeMember_unknown hunknown, hnext]
          cases value.skip with
          | error f => rfl
          | ok _ => exact ih
    -- a key that is no text is refused
    · rw [Shape.takeMember_of_not_text hkey]
      cases key <;> first | rfl | exact absurd ⟨_, rfl⟩ hkey

/-- The record takes the manner. -/
theorem takeMember_kind (left : Nat) (v : Node) (words : Option (Option String)) :
    (shape left).takeMember (.text "kind", v) ⟨none, words⟩ =
      (decodeVariant manners left v).toOption.map fun m => ⟨some m, words⟩ := by
  show (decodeVariant manners left v >>= _).toOption = _
  cases decodeVariant manners left v <;> rfl

/-- The record takes the words, which may be nothing. -/
theorem takeMember_text (left : Nat) (v : Node) (manner : Option Manner) :
    (shape left).takeMember (.text "text", v) ⟨manner, none⟩ =
      (decodeOption decodeText v).toOption.map fun w => ⟨manner, some w⟩ := by
  show (decodeOption decodeText v >>= _).toOption = _
  cases decodeOption decodeText v <;> rfl

/-- After both keys the members are only passed over: a third one that counts is a repetition, and
refused. -/
theorem decodeMembers_both (left : Nat) (members : List (Node × Node)) (m : Manner)
    (w : Option String) :
    ((shape left).decodeMembers members ⟨some m, some w⟩).toOption =
      (noMoreMembers members).toOption.map fun _ => ⟨some m, some w⟩ := by
  rw [decodeMembers_next, noMoreMembers, toOption_bind]
  cases nextMember members with
  | error e => rfl
  | ok next =>
    match next with
    | none => rfl
    | some (true, _, _) => rfl
    | some (false, _, _) => rfl

/-- **The words of a manner, and then members that are only passed over.** What is read in this
order is what the record makes of it, which has the words first and looks at manner and words
together at the end. -/
theorem decodeWords_last (left left' : Nat) (m : Manner) (words : Node)
    (members : List (Node × Node)) :
    (do
      let speech ← decodeWords left' m words
      noMoreMembers members
      pure speech).toOption =
    ((decodeOption decodeText words).toOption.bind fun w =>
      ((shape left).decodeMembers members ⟨some m, some w⟩).toOption).bind Draft.speech? := by
  rw [toOption_bind, decodeWords_eq]
  cases (decodeOption decodeText words).toOption with
  | none => rfl
  | some w =>
    rw [Option.bind_some, Option.bind_some, decodeMembers_both]
    cases hspeech : Draft.speech? ⟨some m, some w⟩ <;> cases noMoreMembers members <;>
      simp [hspeech, bind, Except.bind, pure, Except.pure, Except.toOption]

/-- **The manner comes first**: the words are read as it wants them, where they stand. -/
theorem decodeMembers_kindFirst {left : Nat} {members rest : List (Node × Node)} {kind : Node}
    (hnext : nextMember members = .ok (some (true, kind, rest))) :
    (decodeMembers left members none).toOption =
      (((shape left).takeMember (.text "kind", kind) {}).bind fun d =>
        ((shape left).decodeMembers rest d).toOption).bind Draft.speech? := by
  rw [decodeMembers, hnext, takeMember_kind]
  show (decodeVariant manners left kind >>= fun m => _).toOption = _
  cases decodeVariant manners left kind with
  | error e => rfl
  | ok m =>
    show (nextMember rest >>= _).toOption =
      ((shape left).decodeMembers rest ⟨some m, none⟩).toOption.bind _
    rw [decodeMembers_next]
    cases nextMember rest with
    | error e => rfl
    | ok next =>
      match next with
      -- no words follow; or the manner again; or the words
      | none => exact withoutWords_eq m
      | some (true, _, _) => rfl
      | some (false, words, rest) =>
        show _ = (((shape left).takeMember (.text "text", words) ⟨some m, none⟩).bind _).bind _
        rw [takeMember_text, Option.bind_map]
        exact decodeWords_last left left m words rest

/-- **The manner that comes after words that were kept**, and then members that are only passed
over. Kept words are read once the manner is known, and they are read as they would have been in
their place. -/
theorem decodeKind_last {left : Nat} {words : Node} {held : Value}
    (hheld : words.complete left = .ok held) (kind : Node) (members : List (Node × Node)) :
    (do
      let m ← decodeVariant manners left kind
      let speech ← decodeWords depthLimit m (Node.ofValue held)
      noMoreMembers members
      pure speech).toOption =
    ((decodeOption decodeText words).toOption.bind fun w =>
      ((shape left).takeMember (.text "kind", kind) ⟨none, some w⟩).bind fun d =>
        ((shape left).decodeMembers members d).toOption).bind Draft.speech? := by
  cases hw : (decodeOption decodeText words).toOption with
  | none =>
    -- words that do not fit in a record do not fit once the manner is known
    cases decodeVariant manners left kind with
    | error e => rfl
    | ok m =>
      have hlast := decodeWords_last left depthLimit m words members
      rw [hw, Node.eq_ofValue hheld] at hlast
      exact hlast
  | some w =>
    rw [Option.bind_some, takeMember_kind]
    cases decodeVariant manners left kind with
    | error e => rfl
    | ok m =>
      have hlast := decodeWords_last left depthLimit m words members
      rw [hw, Node.eq_ofValue hheld] at hlast
      exact hlast

/-- **The words come first**: they are kept until the manner is known. They can be kept exactly if
they have no fault, and a fault is refused by the record as well. -/
theorem decodeMembers_wordsFirst {left : Nat} {members rest : List (Node × Node)} {words : Node}
    (hnext : nextMember members = .ok (some (false, words, rest))) :
    (decodeMembers left members none).toOption =
      (((shape left).takeMember (.text "text", words) {}).bind fun d =>
        ((shape left).decodeMembers rest d).toOption).bind Draft.speech? := by
  rw [decodeMembers, hnext, takeMember_text, Option.bind_map]
  show (orFault (words.complete left) >>= fun held => _).toOption =
    ((decodeOption decodeText words).toOption.bind fun w =>
      ((shape left).decodeMembers rest ⟨none, some w⟩).toOption).bind _
  cases hheld : words.complete left with
  | error e =>
    -- words with a fault are not read in a record either
    cases hw : (decodeOption decodeText words).toOption with
    | none => rfl
    | some w =>
      obtain ⟨held, hwhole⟩ := whole_of_words hw left
      exact nomatch hwhole.symm.trans hheld
  | ok held =>
    have hmembers (w : Option String) := decodeMembers_next left rest ⟨none, some w⟩
    show (nextMember rest >>= _).toOption = _
    cases hrest : nextMember rest with
    | error e =>
      simp only [hmembers, hrest]
      cases (decodeOption decodeText words).toOption <;> rfl
    | ok next =>
      simp only [hmembers, hrest]
      -- no manner follows; or the words again; or the manner
      match next with
      | none => cases (decodeOption decodeText words).toOption <;> rfl
      | some (false, _, _) => cases (decodeOption decodeText words).toOption <;> rfl
      | some (true, kind, rest) => exact decodeKind_last hheld kind rest

/-- **The members of what is said** are read as those of a record, whichever of the two comes first.
-/
theorem decodeMembers_eq (left : Nat) (members : List (Node × Node)) :
    (decodeMembers left members none).toOption =
      ((shape left).decodeMembers members {}).toOption.bind Draft.speech? := by
  rw [decodeMembers_next]
  cases hnext : nextMember members with
  | error e =>
    rw [decodeMembers, hnext]
    rfl
  | ok next =>
    match next, hnext with
    | none, hnext =>
      rw [decodeMembers, hnext]
      rfl
    | some (true, kind, rest), hnext => exact decodeMembers_kindFirst hnext
    | some (false, words, rest), hnext => exact decodeMembers_wordsFirst hnext

/-- **What is said is read as a record** of the manner and the words. A fault behind the last member
is found by both, before anything is said. -/
theorem decode_object (left : Nat) (members : List (Node × Node)) (fault : Option Fault) :
    (decode (left + 1) (.object members fault)).toOption =
      ((shape left).decodeMembers members {}).toOption.bind fun d =>
        (checkFault fault).toOption.bind fun _ => d.speech? := by
  have hdecode : decode (left + 1) (.object members fault) =
      (decodeMembers left members fault >>= fun speech =>
        orFault (checkFault fault) >>= fun _ => pure speech) := rfl
  rw [hdecode, toOption_bind]
  cases fault with
  | some f => cases decodeMembers left members (some f) <;> simp [checkFault, Except.toOption, throw,
      throwThe, MonadExceptOf.throw, orFault, bind, Except.bind]
  | none =>
    rw [decodeMembers_eq]
    simp [orFault, checkFault, Except.toOption, bind, Except.bind, pure, Except.pure]

/-- **What is read of what is said** does not depend on how it is arranged. As an object it is read
as a record; as an array it has its manner and its words in their places, and of an item only what
is read of it counts. -/
theorem insensitive_decode (left : Nat) : Insensitive plan (decode left) := by
  intro n n' hstep
  -- at the last level nothing is read
  cases left with
  | zero => cases hstep <;> rfl
  | succ left =>
    rcases hstep.forms with ⟨members, members', fault, rfl, rfl⟩ | ⟨_, _, fault, rfl, rfl⟩
    · rw [decode_object, decode_object, (orderly left).decodeMembers_step hstep]
    · cases hstep with
      | @item _ before after v v' _ hv =>
        -- the manner, the words, or an item that is too much
        match before with
        | [] =>
          have hmanner : (decodeVariant manners left v).toOption =
              (decodeVariant manners left v').toOption := insensitive_decodeVariant left v v' hv
          cases after <;>
            simp only [decode, List.nil_append, Nat.add_one_ne_zero, if_false, Nat.add_sub_cancel,
              toOption_bind, hmanner]
        | [kind] =>
          have hwords (m : Manner) :
              (decodeWords left m v).toOption = (decodeWords left m v').toOption := by
            rw [decodeWords_eq, decodeWords_eq, insensitive_decodeText.option v v' hv]
          simp only [decode, List.cons_append, List.nil_append, Nat.add_one_ne_zero, if_false,
            Nat.add_sub_cancel, toOption_bind, hwords]
        | kind :: words :: before =>
          cases before <;>
            simp only [decode, List.cons_append, List.nil_append, Nat.add_one_ne_zero, if_false,
              List.isEmpty_cons, Bool.false_eq_true]

end Speech

/-! ### Figures and stages -/

/-- How a figure can be arranged: as a record whose place and whose speech can be arranged
themselves. -/
def Figure.plan : Plan := .record
  [("id", .free), ("name", .free), ("imageRef", .free), ("position", Point.plan),
   ("heading", .free), ("scale", .free), ("visible", .free), ("speech", Speech.plan)]

/-- **What is read of a figure** does not depend on how it is arranged. Any two of the eight fields
are apart, since each sets a place of its own in what has been read; and each reads its value
insensitively. -/
theorem Figure.insensitive_decode (left : Nat) : Insensitive plan (decode left) := by
  refine (Shape.Orderly.insensitive ⟨?_, ?_⟩ left).bind _
  · simp only [shape, List.pairwise_cons, List.forall_mem_cons, List.Pairwise.nil, and_true]
    and_intros
    all_goals first
      | exact fun _ h => absurd h List.not_mem_nil
      | exact .of_parts (fun _ _ => rfl) (fun _ _ => rfl) (fun _ _ _ => rfl) (fun _ _ => rfl)
          fun _ _ => rfl
  -- field by field, in the order of the plan
  · refine .cons (.of_part rfl rfl (fun _ _ => rfl) (fun _ _ => rfl) insensitive_decodeText) ?_
    refine .cons (.of_part rfl rfl (fun _ _ => rfl) (fun _ _ => rfl) insensitive_decodeText) ?_
    refine .cons (.of_part rfl rfl (fun _ _ => rfl) (fun _ _ => rfl) insensitive_decodeText) ?_
    refine .cons (.of_part rfl rfl (fun _ _ => rfl) (fun _ _ => rfl)
      (Point.insensitive_decode (left - 1))) ?_
    refine .cons (.of_part rfl rfl (fun _ _ => rfl) (fun _ _ => rfl) insensitive_decodeFloat) ?_
    refine .cons (.of_part rfl rfl (fun _ _ => rfl) (fun _ _ => rfl) insensitive_decodeFloat) ?_
    refine .cons (.of_part rfl rfl (fun _ _ => rfl) (fun _ _ => rfl) insensitive_decodeBool) ?_
    exact .cons (.of_part rfl rfl (fun _ _ => rfl) (fun _ _ => rfl)
      (Speech.insensitive_decode (left - 1))) .nil

/-- **How a stage can be arranged**: its keys, those of the backdrop, and those of each figure. The
figures themselves stay in order. -/
def Stage.plan : Plan := .record [("background", Backdrop.plan), ("actors", .list Figure.plan)]

/-- **What is read of a stage** does not depend on how it is arranged. -/
theorem Stage.insensitive_decode (left : Nat) : Insensitive plan (decode left) := by
  refine (Shape.Orderly.insensitive ⟨List.pairwise_pair.mpr ?_, ?_⟩ left).bind _
  · exact .of_parts (fun _ _ => rfl) (fun _ _ => rfl) (fun _ _ _ => rfl) (fun _ _ => rfl)
      fun _ _ => rfl
  · refine .cons (.of_part rfl rfl (fun _ _ => rfl) (fun _ _ => rfl)
      (Backdrop.insensitive_decode (left - 1)).option) ?_
    exact .cons (.of_part rfl rfl (fun _ _ => rfl) (fun _ _ => rfl)
      ((Figure.insensitive_decode (left - 1 - 1)).list (left - 1))) .nil

end StagePlay
