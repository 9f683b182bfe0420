import StagePlay.Json.Reader
import StagePlay.Proofs.Number.Digits

/-!
# Reading a written document

The reader takes a written document back in, character by character. A text comes back whatever
characters are in it, and an array, an object or a word whatever follows it; a number has no end of
its own, so what follows it must end it. That the digits of one number lead back to it is taken for
granted here (`Numeral.Rereads`).

* `State.feed` — the reader on several characters;
* `feed_printText`, `Numeral.Rereads.feed` — a written text and a written number;
* `feed_print` — a written document in the middle of another one;
* `read_write` — the result.
-/

namespace StagePlay.Json

open StagePlay.Number

/-- The reader after several characters. -/
def State.feed (state : State) (cs : List Char) : State := cs.foldl State.step state

namespace State

@[simp] theorem feed_nil (state : State) : state.feed [] = state := rfl

@[simp] theorem feed_cons (state : State) (c : Char) (cs : List Char) :
    state.feed (c :: cs) = (state.step c).feed cs := rfl

@[simp] theorem feed_append (state : State) (cs ds : List Char) :
    state.feed (cs ++ ds) = (state.feed cs).feed ds := List.foldl_append

/-- A broken reader stays broken. -/
@[simp] theorem feed_broken (root : Node) (cs : List Char) :
    (State.broken root).feed cs = .broken root := by
  induction cs with
  | nil => rfl
  | cons c cs ih => exact ih

/-- After the document, whatever is left over stays left over. -/
@[simp] theorem feed_trailing (root : Node) (cs : List Char) :
    (State.finished root true).feed cs = .finished root true := by
  induction cs with
  | nil => rfl
  | cons c cs ih => exact ih

end State

/-! ### Texts -/

/-- The four digits of an escaped control, read one by one. -/
theorem hexValue?_digitChar {n : Nat} (hn : n < 16) : hexValue? (Nat.digitChar n) = some n := by
  revert n
  decide

theorem utf8Size_digitChar {n : Nat} (hn : n < 16) : (Nat.digitChar n).utf8Size = 1 := by
  revert n
  decide

/-- **A control, escaped by its code**, is that control again. Its code is below 32, so two of the
four digits are zeros and the others are those of its sixteens and its units. -/
theorem feed_escapedControl {c : Char} (hc : c.toNat < 0x20) (chars : List Char)
    (stack : List Frame) :
    (State.reading (.text ⟨chars, false, .plain⟩) stack).feed
        ['\\', 'u', '0', '0', Nat.digitChar (c.toNat / 16), Nat.digitChar (c.toNat % 16)] =
      .reading (.text ⟨c :: chars, false, .plain⟩) stack := by
  have hzero : hexValue? '0' = some 0 := rfl
  have hzeroSize : '0'.utf8Size = 1 := rfl
  have hcode : 16 * (c.toNat / 16) + c.toNat % 16 = c.toNat := Nat.div_add_mod _ _
  -- a control is not one half of a pair of codes
  have hlow : isLowHalf c.toNat = false := by
    simp only [isLowHalf, Bool.and_eq_false_iff, decide_eq_false_iff_not]
    omega
  have hhigh : isHighHalf c.toNat = false := by
    simp only [isHighHalf, Bool.and_eq_false_iff, decide_eq_false_iff_not]
    omega
  simp [State.step, TextScan.step, TextScan.plainStep, TextScan.escapeStep, TextScan.hexStep,
    hzero, hzeroSize, hexValue?_digitChar (show c.toNat / 16 < 16 by omega),
    utf8Size_digitChar (show c.toNat / 16 < 16 by omega),
    hexValue?_digitChar (show c.toNat % 16 < 16 by omega),
    utf8Size_digitChar (show c.toNat % 16 < 16 by omega),
    hcode, TextScan.codeStep, hlow, hhigh, TextScan.push]

/-- **A character is escaped by a letter or by its code, or it stands for itself.** Seven characters
have letters of their own, of which two are no controls. -/
theorem escapedChar_cases (c : Char) :
    (∃ d, escapedChar c = ['\\', d] ∧ d ≠ 'u' ∧ simpleEscape? d = some c) ∨
      (escapedChar c =
          ['\\', 'u', '0', '0', Nat.digitChar (c.toNat / 16), Nat.digitChar (c.toNat % 16)] ∧
        c.toNat < 0x20) ∨
      (escapedChar c = [c] ∧ c ≠ '"' ∧ c ≠ '\\' ∧ ¬ c.toNat < 0x20) := by
  by_cases hletter : c ∈ ['"', '\\', '\x08', '\x0c', '\n', '\r', '\t']
  · simp only [List.mem_cons, List.not_mem_nil, or_false] at hletter
    rcases hletter with rfl | rfl | rfl | rfl | rfl | rfl | rfl <;>
      exact .inl ⟨_, rfl, by decide, rfl⟩
  · simp only [List.mem_cons, List.not_mem_nil, or_false, not_or] at hletter
    obtain ⟨hquote, hslash, hb, hf, hn, hr, ht⟩ := hletter
    have heq : escapedChar c = if c.toNat < 0x20 then
        ['\\', 'u', '0', '0', Nat.digitChar (c.toNat / 16), Nat.digitChar (c.toNat % 16)]
        else [c] := by
      rw [escapedChar, if_neg hquote, if_neg hslash, if_neg hb, if_neg hf, if_neg hn, if_neg hr,
        if_neg ht]
    by_cases hcontrol : c.toNat < 0x20
    · exact .inr (.inl ⟨heq.trans (if_pos hcontrol), hcontrol⟩)
    · exact .inr (.inr ⟨heq.trans (if_neg hcontrol), hquote, hslash, hcontrol⟩)

/-- **An escaped character is that character again.** -/
theorem feed_escapedChar (c : Char) (chars : List Char) (stack : List Frame) :
    (State.reading (.text ⟨chars, false, .plain⟩) stack).feed (escapedChar c) =
      .reading (.text ⟨c :: chars, false, .plain⟩) stack := by
  rcases escapedChar_cases c with ⟨d, heq, hd, hsimple⟩ | ⟨heq, hcontrol⟩ |
    ⟨heq, hquote, hslash, hplain⟩
  -- by a letter, by its code, or as itself
  · rw [heq]
    simp [State.step, TextScan.step, TextScan.plainStep, TextScan.escapeStep, hd, hsimple,
      TextScan.push]
  · rw [heq]
    exact feed_escapedControl hcontrol chars stack
  · rw [heq]
    simp [State.step, TextScan.step, TextScan.plainStep, TextScan.push, hquote, hslash, hplain]

/-- **The characters of a text, and its end.** The reader keeps what it has read of the text in
reverse, and the induction goes along with it. -/
theorem feed_flatMap_escapedChar (cs chars : List Char) (stack : List Frame) :
    (State.reading (.text ⟨chars, false, .plain⟩) stack).feed (cs.flatMap escapedChar ++ ['"']) =
      .deliver (.text (String.ofList (chars.reverse ++ cs))) stack := by
  induction cs generalizing chars with
  | nil => simp [State.step, TextScan.step, TextScan.plainStep, TextScan.node]
  | cons c cs ih => simp [feed_escapedChar, ih]

/-- **A written text is that text again**, as a value or as a key. Where a text may stand, a quote
begins it. -/
theorem feed_printText {mode : Mode} {stack : List Frame}
    (hstart : (State.reading mode stack).step '"' = .reading (.text .opened) stack) (s : String)
    (rest : List Char) :
    (State.reading mode stack).feed (printText s rest) =
      (State.deliver (.text s) stack).feed rest := by
  have hsplit : printText s rest = '"' :: ((s.toList.flatMap escapedChar ++ ['"']) ++ rest) := by
    simp [printText]
  rw [hsplit, State.feed_cons, hstart, State.feed_append, TextScan.opened,
    feed_flatMap_escapedChar, List.reverse_nil, List.nil_append, String.ofList_toList]

/-! ### Numbers -/

/-- The characters that numbers are written with. None of them ends a number inside of a document.
-/
def isNumeric (c : Char) : Bool := isDigit c || c = '-' || c = '+' || c = '.' || c = 'e'

theorem isNumeric_digitChars {n : Nat} {c : Char} (hc : c ∈ digitChars n) : isNumeric c = true := by
  simp [isNumeric, isDigit_of_mem_digitChars hc]

theorem isNumeric_zeros {n : Nat} {c : Char} (hc : c ∈ zeros n) : isNumeric c = true := by
  obtain rfl := List.eq_of_mem_replicate hc
  rfl

/-- The positional form of a decimal: all its digits and zeros behind them, or a point among them,
or a point and zeros before them. -/
theorem isNumeric_positionalChars {d : Decimal} {c : Char} (hc : c ∈ positionalChars true d) :
    isNumeric c = true := by
  have hdigits := @isNumeric_digitChars d.digits c
  unfold positionalChars at hc
  dsimp only at hc
  split at hc
  · simp only [List.mem_append, if_true, List.mem_cons, List.not_mem_nil, or_false] at hc
    rcases hc with (hc | hc) | rfl | rfl
    · exact hdigits hc
    · exact isNumeric_zeros hc
    · rfl
    · rfl
  · split at hc
    · simp only [List.mem_append, List.mem_singleton] at hc
      rcases hc with (hc | rfl) | hc
      · exact hdigits (List.mem_of_mem_take hc)
      · rfl
      · exact hdigits (List.mem_of_mem_drop hc)
    · simp only [List.mem_append, List.mem_cons, List.not_mem_nil, or_false] at hc
      rcases hc with ((rfl | rfl) | hc) | hc
      · rfl
      · rfl
      · exact isNumeric_zeros hc
      · exact hdigits hc

/-- The scientific form of a decimal: a digit, a point if more digits follow, an exponent. -/
theorem isNumeric_scientificChars {lead : Int} {d : Decimal} {c : Char}
    (hc : c ∈ scientificChars lead d) : isNumeric c = true := by
  unfold scientificChars at hc
  dsimp only at hc
  rw [List.mem_append, List.mem_append, List.mem_singleton] at hc
  rcases hc with (hc | rfl) | hc
  · have hdigits := @isNumeric_digitChars d.digits c
    split at hc
    · next first second rest hds =>
      rw [hds] at hdigits
      rcases List.mem_cons.mp hc with rfl | hc
      · exact hdigits List.mem_cons_self
      · rcases List.mem_cons.mp hc with rfl | hc
        · rfl
        · exact hdigits (List.mem_cons_of_mem _ hc)
    · exact hdigits hc
  · rfl
  -- the exponent, with its sign if it is below zero
  · split at hc <;> rcases List.mem_cons.mp hc with rfl | hc
    · rfl
    · exact isNumeric_digitChars hc
    · rfl
    · exact isNumeric_digitChars hc

/-- **A finite float is written with the characters of numbers**, in whichever form it is written. A
float that is not finite has no digits, but a word. -/
theorem isNumeric_chars {x : Float} (hx : isFinite x = true) {c : Char}
    (hc : c ∈ Layout.document.chars x) : isNumeric c = true := by
  have hmagnitude (m : Nat) (e : Int) (hc : c ∈ Layout.document.magnitudeChars m e) :
      isNumeric c = true := by
    unfold Layout.magnitudeChars at hc
    dsimp only at hc
    repeat' split at hc
    · exact isNumeric_positionalChars hc
    · exact isNumeric_positionalChars hc
    · exact isNumeric_scientificChars hc
  obtain ⟨negative, m, e, hexact⟩ : ∃ negative m e, Exact.ofFloat x = .finite negative m e := by
    have hx' : x.toModel.unpack.isFinite = true := hx
    have hunpack : Float.Model.UnpackedFloat.unpack Float.Model.Format.binary64
        x.toBits.toBitVec = x.toModel.unpack := rfl
    unfold Exact.ofFloat
    rw [hunpack]
    cases hu : x.toModel.unpack with
    | notANumber => rw [hu] at hx'; exact absurd hx' (by decide)
    | infinity s => rw [hu] at hx'; exact absurd hx' Bool.false_ne_true
    | zero s => exact ⟨_, _, _, rfl⟩
    | finite s m e hm => exact ⟨_, _, _, rfl⟩
  unfold Layout.chars at hc
  rw [hexact] at hc
  rcases List.mem_append.mp hc with hc | hc
  -- the sign, and then the digits
  · cases negative <;> simp at hc
    subst hc
    rfl
  · exact hmagnitude m e hc

/-- **A number that leads back to itself** where it is written alone. This is all that is ever
relied on of the reader's arithmetic, and it is a matter of the number alone. -/
def Numeral.Rereads (n : Numeral) : Prop := read (Value.number n).write = ⟨.number n, false⟩

/-- The characters of numbers are no blanks. -/
theorem not_isSpace_of_isNumeric {c : Char} (hc : isNumeric c = true) : isSpace c = false := by
  cases hspace : isSpace c with
  | false => rfl
  | true =>
    simp only [isSpace, Bool.or_eq_true, decide_eq_true_eq] at hspace
    rcases hspace with ((rfl | rfl) | rfl) | rfl <;> exact absurd hc (by decide)

/-- **A text that is one number is read as one number to its end.** Were the number to end before
the text does, there would be a character of numbers behind it, which is neither a blank nor
anything else that may follow a document. -/
theorem NumberScan.of_finish {n : Numeral} {cs : List Char} (hcs : ∀ c ∈ cs, isNumeric c = true)
    {scan : NumberScan}
    (hfinish : ((State.reading (.number scan) []).feed cs).finish = ⟨.number n, false⟩) :
    ∃ last, cs.foldlM step scan = some last ∧ last.complete = true ∧ last.node = .number n := by
  induction cs generalizing scan with
  | nil =>
    refine ⟨scan, rfl, ?_⟩
    rw [State.feed_nil, State.finish] at hfinish
    dsimp only at hfinish
    cases hcomplete : scan.complete with
    | true =>
      rw [hcomplete] at hfinish
      exact ⟨rfl, congrArg Document.root hfinish⟩
    | false =>
      rw [hcomplete] at hfinish
      exact absurd (congrArg Document.root hfinish) (by simp [collapse, truncated])
  | cons c cs ih =>
    obtain ⟨hc, hcs⟩ := List.forall_mem_cons.mp hcs
    cases hstep : scan.step c with
    | some scan' =>
      have hnext : (State.reading (.number scan) []).step c = .reading (.number scan') [] := by
        simp [State.step, hstep]
      rw [State.feed_cons, hnext] at hfinish
      obtain ⟨last, hlast, hend⟩ := ih hcs hfinish
      exact ⟨last, by simp [hstep, hlast], hend⟩
    | none =>
      -- the number would have to end before the text does
      have hnext : (State.reading (.number scan) []).step c = .finished scan.node true ∨
          (State.reading (.number scan) []).step c = .broken malformedScalar := by
        simp only [State.step, hstep]
        split
        · exact .inl (by simp [State.deliver, State.follow, not_isSpace_of_isNumeric hc])
        · exact .inr rfl
      rw [State.feed_cons] at hfinish
      rcases hnext with hnext | hnext
      · rw [hnext, State.feed_trailing] at hfinish
        exact absurd (congrArg Document.trailing hfinish) (by simp [State.finish])
      · rw [hnext, State.feed_broken] at hfinish
        exact absurd (congrArg Document.root hfinish) (by simp [State.finish, malformedScalar])

/-- **A number starts with a digit or the minus sign**, and then it is read as a number wherever it
stands. The other characters of numbers start nothing. -/
theorem start_of_isNumeric {c : Char} (hc : isNumeric c = true) :
    (∃ first, ∀ stack, State.start c stack = .reading (.number first) stack) ∨
      State.start c [] = .broken (.missing .malformed) := by
  simp only [isNumeric, Bool.or_eq_true, decide_eq_true_eq] at hc
  rcases hc with (((hdigit | rfl) | rfl) | rfl) | rfl
  · have hne (d : Char) (hd : isDigit d = false) : c ≠ d := by
      rintro rfl
      rw [hdigit] at hd
      exact absurd hd (by decide)
    refine .inl ⟨.ofDigit c, fun stack => ?_⟩
    rw [State.start, if_neg (hne 'n' rfl), if_neg (hne 't' rfl), if_neg (hne 'f' rfl),
      if_neg (hne '-' rfl), if_pos hdigit]
  · exact .inl ⟨_, fun _ => rfl⟩
  -- nothing starts with a plus, a point or an exponent
  all_goals exact .inr rfl

/-- A number that leads back to itself is written with the characters of numbers. A float that is
not finite is written as the word for nothing, and does not lead back to itself. -/
theorem Numeral.Rereads.print_eq {n : Numeral} (h : n.Rereads) :
    ∃ cs, (∀ rest, n.print rest = cs ++ rest) ∧ ∀ c ∈ cs, isNumeric c = true := by
  cases n with
  | int i =>
    cases hsign : decide (i < 0) with
    | false =>
      exact ⟨digitChars i.natAbs, fun rest => by simp [print, printInt, of_decide_eq_false hsign],
        fun c hc => isNumeric_digitChars hc⟩
    | true =>
      refine ⟨'-' :: digitChars i.natAbs,
        fun rest => by simp [print, printInt, of_decide_eq_true hsign], fun c hc => ?_⟩
      rcases List.mem_cons.mp hc with rfl | hc
      · rfl
      · exact isNumeric_digitChars hc
  | real x =>
    cases hx : isFinite x with
    | true =>
      exact ⟨Layout.document.chars x, fun rest => by simp [print, hx],
        fun c hc => isNumeric_chars hx hc⟩
    | false =>
      -- it would be written as the word for nothing
      have hnull : (Value.number (.real x)).write = Value.null.write := by
        show String.ofList ((Numeral.real x).print []) = String.ofList ("null".toList ++ [])
        simp [print, hx]
      have hread : read Value.null.write = ⟨.null, false⟩ := rfl
      unfold Rereads at h
      rw [hnull, hread] at h
      exact absurd (congrArg Document.root h) (by simp)

/-- **A number that leads back to itself is read as one number**, whatever is open around it. Alone
it is ended by the end of the text; as the scan does not look at what is open, it comes to the same
last state inside a document. -/
theorem Numeral.Rereads.scan {n : Numeral} (h : n.Rereads) :
    ∃ c cs first last, (∀ rest, n.print rest = c :: (cs ++ rest)) ∧ isNumeric c = true ∧
      (∀ stack, State.start c stack = .reading (.number first) stack) ∧
      cs.foldlM NumberScan.step first = some last ∧ last.complete = true ∧
      last.node = .number n := by
  obtain ⟨chars, hprint, hnumeric⟩ := h.print_eq
  have hread : ((State.reading .value []).feed chars).finish = ⟨.number n, false⟩ := by
    have hwrite : (Value.number n).write.toList = chars := by
      show (String.ofList (n.print [])).toList = chars
      simp [hprint]
    rw [← hwrite]
    exact h
  cases chars with
  | nil => exact absurd (congrArg Document.root hread) (by simp [State.finish, collapse])
  | cons c cs =>
    obtain ⟨hc, hcs⟩ := List.forall_mem_cons.mp hnumeric
    have hstep : (State.reading .value []).step c = State.start c [] := by
      simp [State.step, not_isSpace_of_isNumeric hc]
    rw [State.feed_cons, hstep] at hread
    rcases start_of_isNumeric hc with ⟨first, hfirst⟩ | hbroken
    -- nothing but the end of the text ends a number there, so one scan has taken all characters
    · rw [hfirst] at hread
      obtain ⟨last, hlast, hcomplete, hnode⟩ := NumberScan.of_finish hcs hread
      exact ⟨c, cs, first, last, hprint, hc, hfirst, hlast, hcomplete, hnode⟩
    · rw [hbroken, State.feed_broken] at hread
      exact absurd (congrArg Document.root hread) (by simp [State.finish])

/-- Several characters of one number are read in the mode of numbers. -/
theorem NumberScan.feed_of_foldlM {cs : List Char} {first last : NumberScan}
    (h : cs.foldlM step first = some last) (stack : List Frame) :
    (State.reading (.number first) stack).feed cs = .reading (.number last) stack := by
  induction cs generalizing first with
  | nil =>
    cases h
    rfl
  | cons c cs ih =>
    rw [List.foldlM_cons] at h
    cases hstep : first.step c with
    | none => rw [hstep] at h; cases h
    | some next =>
      rw [hstep] at h
      have hnext : (State.reading (.number first) stack).step c = .reading (.number next) stack := by
        simp [State.step, hstep]
      rw [State.feed_cons, hnext]
      exact ih h

/-! ### Numbers inside a document -/

/-- What may follow a number inside a document: a comma, or the end of what it stands in. -/
def endsNumber (rest : List Char) : Prop :=
  ∃ c cs, rest = c :: cs ∧ (c = ',' ∨ c = ']' ∨ c = '}')

/-- A character that may follow a number ends it, at whatever point the number is. -/
theorem NumberScan.step_eq_none (scan : NumberScan) {c : Char} (hc : c = ',' ∨ c = ']' ∨ c = '}') :
    scan.step c = none := by
  have hdigit : isDigit c = false := by rcases hc with rfl | rfl | rfl <;> rfl
  have hne (d : Char) (hd : isNumeric d = true ∨ d = 'E') : c ≠ d := by
    rcases hc with rfl | rfl | rfl <;> rintro rfl <;> exact absurd hd (by decide)
  have hwhole : scan.afterWhole c = none := by
    simp [afterWhole, hne '.' (.inl rfl), hne 'e' (.inl rfl), hne 'E' (.inr rfl)]
  unfold step
  split <;> simp [hdigit, hwhole, hne 'e' (.inl rfl), hne 'E' (.inr rfl), hne '+' (.inl rfl),
    hne '-' (.inl rfl)]

/-- After a value inside an array or object it is the next character's turn, as it is after any
other value. -/
theorem State.follow_deliver_number (n : Numeral) (c : Char) (stack : List Frame) :
    (State.deliver (.number n) stack).follow c = (State.deliver (.number n) stack).step c := by
  cases stack with
  | nil => rfl
  | cons frame stack => cases frame <;> rfl

/-- **A written number is that number again**, if something ends it. This is the one part of a
document whose end is not in its own characters. -/
theorem Numeral.Rereads.feed {n : Numeral} (h : n.Rereads) {rest : List Char}
    (hrest : endsNumber rest) (stack : List Frame) :
    (State.reading .value stack).feed (n.print rest) =
      (State.deliver (.number n) stack).feed rest := by
  obtain ⟨c, cs, first, last, hprint, hc, hfirst, hlast, hcomplete, hnode⟩ := h.scan
  obtain ⟨d, ds, rfl, hd⟩ := hrest
  have hstart : (State.reading .value stack).step c = .reading (.number first) stack := by
    simp [State.step, not_isSpace_of_isNumeric hc, hfirst]
  -- the character behind the number ends it, and is then read as what follows a value
  have hend : (State.reading (.number last) stack).step d =
      (State.deliver (.number n) stack).step d := by
    have hdigit : isDigit d = false := by rcases hd with rfl | rfl | rfl <;> rfl
    rw [← State.follow_deliver_number, ← hnode]
    simp [State.step, last.step_eq_none hd, hcomplete, hdigit]
  rw [hprint, State.feed_cons, hstart, State.feed_append, NumberScan.feed_of_foldlM hlast,
    State.feed_cons, hend, State.feed_cons]

/-! ### Documents -/

mutual

/-- The numbers of a document. -/
def Value.numbers : Value → List Numeral
  | .number n => [n]
  | .array items => itemNumbers items
  | .object members => memberNumbers members
  | _ => []

/-- The numbers of items. -/
def itemNumbers : List Value → List Numeral
  | [] => []
  | item :: items => item.numbers ++ itemNumbers items

/-- The numbers of members. -/
def memberNumbers : List (String × Value) → List Numeral
  | [] => []
  | (_, value) :: members => value.numbers ++ memberNumbers members

end

/-- **What is written starts with something**, which is not the end of an array. So an array with an
item is told from an empty one. -/
theorem Value.print_head {v : Value} (h : ∀ n ∈ v.numbers, n.Rereads) (rest : List Char) :
    ∃ c cs, v.print rest = c :: cs ∧ c ≠ ']' ∧ isSpace c = false := by
  cases v with
  | null => exact ⟨_, _, rfl, by decide, rfl⟩
  | bool b => cases b <;> exact ⟨_, _, rfl, by decide, rfl⟩
  | number n =>
    obtain ⟨c, cs, -, -, hprint, hc, -⟩ := (h n (List.mem_singleton_self n)).scan
    refine ⟨c, cs ++ rest, hprint rest, ?_, not_isSpace_of_isNumeric hc⟩
    rintro rfl
    exact absurd hc (by decide)
  | text s => exact ⟨_, _, rfl, by decide, rfl⟩
  | array items => cases items <;> exact ⟨_, _, rfl, by decide, rfl⟩
  | object members =>
    rcases members with _ | ⟨⟨key, value⟩, members⟩ <;> exact ⟨_, _, rfl, by decide, rfl⟩

/-- A first item is read like any other value. -/
theorem feed_firstItem {v : Value} (h : ∀ n ∈ v.numbers, n.Rereads) (rest : List Char)
    (stack : List Frame) :
    (State.reading .firstItem stack).feed (v.print rest) =
      (State.reading .value stack).feed (v.print rest) := by
  obtain ⟨c, cs, hprint, hbracket, hspace⟩ := Value.print_head h rest
  rw [hprint, State.feed_cons, State.feed_cons]
  simp [State.step, hspace, hbracket]

/-- An item is followed by a comma or the end of the array. -/
theorem endsNumber_printItems (items : List Value) (rest : List Char) :
    endsNumber (printItems items (']' :: rest)) := by
  cases items with
  | nil => exact ⟨_, _, rfl, .inr (.inl rfl)⟩
  | cons item items => exact ⟨_, _, rfl, .inl rfl⟩

/-- A member is followed by a comma or the end of the object. -/
theorem endsNumber_printMembers (members : List (String × Value)) (rest : List Char) :
    endsNumber (printMembers members ('}' :: rest)) := by
  cases members with
  | nil => exact ⟨_, _, rfl, .inr (.inr rfl)⟩
  | cons m members => exact ⟨_, _, rfl, .inl rfl⟩

mutual

/-- **A written document is that document again**, in the middle of another one. -/
theorem feed_print : ∀ {v : Value} {rest : List Char} (stack : List Frame),
    (∀ n ∈ v.numbers, n.Rereads) → ((∃ n, v = .number n) → endsNumber rest) →
    (State.reading .value stack).feed (v.print rest) =
      (State.deliver (Node.ofValue v) stack).feed rest
  | .null, _, _, _, _ => rfl
  | .bool true, _, _, _, _ => rfl
  | .bool false, _, _, _, _ => rfl
  | .number n, rest, stack, h, hrest => (h n (List.mem_singleton_self n)).feed (hrest ⟨n, rfl⟩) stack
  | .text s, rest, stack, _, _ => feed_printText rfl s rest
  | .array [], _, _, _, _ => rfl
  | .array (item :: items), rest, stack, h, _ => by
    -- the first item as any value, and then further items up to the end
    have hitem : ∀ n ∈ item.numbers, n.Rereads := fun n hn => h n (List.mem_append_left _ hn)
    have hitems : ∀ n ∈ itemNumbers items, n.Rereads := fun n hn => h n (List.mem_append_right _ hn)
    calc (State.reading .firstItem (.array [] :: stack)).feed
          (item.print (printItems items (']' :: rest)))
        = (State.reading .value (.array [] :: stack)).feed
          (item.print (printItems items (']' :: rest))) := feed_firstItem hitem _ _
      _ = (State.reading .more (.array [Node.ofValue item] :: stack)).feed
          (printItems items (']' :: rest)) :=
        feed_print _ hitem fun _ => endsNumber_printItems items rest
      _ = _ := feed_printItems hitems [Node.ofValue item] rest stack
  | .object [], _, _, _, _ => rfl
  | .object ((key, value) :: members), rest, stack, h, _ => by
    -- the first key, its value, and then further members up to the end
    have hvalue : ∀ n ∈ value.numbers, n.Rereads := fun n hn => h n (List.mem_append_left _ hn)
    have hmembers : ∀ n ∈ memberNumbers members, n.Rereads :=
      fun n hn => h n (List.mem_append_right _ hn)
    calc (State.reading .firstKey (.object [] :: stack)).feed
          (printText key (':' :: value.print (printMembers members ('}' :: rest))))
        = (State.reading .value (.member [] (.text key) :: stack)).feed
          (value.print (printMembers members ('}' :: rest))) := feed_printText rfl key _
      _ = (State.reading .more (.object [(.text key, Node.ofValue value)] :: stack)).feed
          (printMembers members ('}' :: rest)) :=
        feed_print _ hvalue fun _ => endsNumber_printMembers members rest
      _ = _ := feed_printMembers hmembers [(.text key, Node.ofValue value)] rest stack

/-- **Further items**, up to the end of the array. What was found of it before is on the stack, in
reverse. -/
theorem feed_printItems : ∀ {items : List Value}, (∀ n ∈ itemNumbers items, n.Rereads) →
    ∀ (found : List Node) (rest : List Char) (stack : List Frame),
    (State.reading .more (.array found :: stack)).feed (printItems items (']' :: rest)) =
      (State.deliver (.array (found.reverse ++ nodesOfValues items) none) stack).feed rest
  | [], _, found, rest, stack => by
    rw [nodesOfValues, List.append_nil]
    rfl
  | item :: items, h, found, rest, stack => by
    have hitem : ∀ n ∈ item.numbers, n.Rereads := fun n hn => h n (List.mem_append_left _ hn)
    have hitems : ∀ n ∈ itemNumbers items, n.Rereads := fun n hn => h n (List.mem_append_right _ hn)
    calc (State.reading .value (.array found :: stack)).feed
          (item.print (printItems items (']' :: rest)))
        = (State.reading .more (.array (Node.ofValue item :: found) :: stack)).feed
          (printItems items (']' :: rest)) :=
        feed_print _ hitem fun _ => endsNumber_printItems items rest
      _ = _ := by
        rw [feed_printItems hitems, List.reverse_cons, List.append_assoc]
        rfl

/-- **Further members**, up to the end of the object. What was found of it before is on the stack,
in reverse. -/
theorem feed_printMembers : ∀ {members : List (String × Value)},
    (∀ n ∈ memberNumbers members, n.Rereads) →
    ∀ (found : List (Node × Node)) (rest : List Char) (stack : List Frame),
    (State.reading .more (.object found :: stack)).feed (printMembers members ('}' :: rest)) =
      (State.deliver (.object (found.reverse ++ nodesOfMembers members) none) stack).feed rest
  | [], _, found, rest, stack => by
    rw [nodesOfMembers, List.append_nil]
    rfl
  | (key, value) :: members, h, found, rest, stack => by
    have hvalue : ∀ n ∈ value.numbers, n.Rereads := fun n hn => h n (List.mem_append_left _ hn)
    have hmembers : ∀ n ∈ memberNumbers members, n.Rereads :=
      fun n hn => h n (List.mem_append_right _ hn)
    calc (State.reading .nextKey (.object found :: stack)).feed
          (printText key (':' :: value.print (printMembers members ('}' :: rest))))
        = (State.reading .value (.member found (.text key) :: stack)).feed
          (value.print (printMembers members ('}' :: rest))) := feed_printText rfl key _
      _ = (State.reading .more (.object ((.text key, Node.ofValue value) :: found) :: stack)).feed
          (printMembers members ('}' :: rest)) :=
        feed_print _ hvalue fun _ => endsNumber_printMembers members rest
      _ = _ := by
        rw [feed_printMembers hmembers, List.reverse_cons, List.append_assoc]
        rfl

end

/-- **The floats of a document lead back to themselves**: each finite one is found again where its
digits stand alone. The reader rounds the digits, the power of ten and their product one after the
other (`scaled`), so this holds of the numbers that one would write by hand and not of all floats. The
results about saving rely on it and on nothing else about numbers. -/
def Value.FloatsReread (v : Value) : Prop :=
  ∀ x, .real x ∈ v.numbers → isFinite x = true → Numeral.Rereads (.real x)

/-- The power of ten is rounded before the product is. -/
example : ¬ Numeral.Rereads (.real 3e23) := by
  intro h
  have hnumber := congrArg (fun d => match d.root with | .number n => some n | _ => none) h
  exact absurd hnumber (by decide +kernel)

/-- Where the numbers of a document are known, nothing but these floats has to be found again. -/
theorem Value.floatsReread_of_numbers (xs : List Float) {v : Value}
    (h : v.numbers = xs.map Numeral.real) (hxs : ∀ x ∈ xs, Numeral.Rereads (.real x)) :
    v.FloatsReread := by
  intro x hx _
  obtain ⟨y, hy, heq⟩ := List.mem_map.mp (h ▸ hx)
  exact heq ▸ hxs y hy

/-- **Reading takes back what was written**: a document whose numbers lead back to themselves is the
document that its text holds. -/
theorem read_write {v : Value} (h : ∀ n ∈ v.numbers, n.Rereads) :
    read v.write = ⟨Node.ofValue v, false⟩ := by
  have hread : read v.write = ((State.reading .value []).feed (v.print [])).finish := by
    show ((String.ofList (v.print [])).toList.foldl State.step _).finish = _
    rw [String.toList_ofList]
    rfl
  by_cases hnumber : ∃ n, v = .number n
  -- a document that is one number is the case that is relied on
  · obtain ⟨n, rfl⟩ := hnumber
    exact h n (List.mem_singleton_self n)
  · rw [hread, feed_print [] h fun hn => absurd hn hnumber]
    rfl

end StagePlay.Json
