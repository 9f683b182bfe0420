import Mathlib.Tactic.SplitIfs
import StagePlay.Toml.Text

/-!
# Texts that are written and read

A text is written in one of five ways, and each of them is read as that text again. What follows it
must not begin with a quote, which would count as one of its own.

* `Escaped` — what a character can be written as between double quotes, and `escaped_escaped`, that
  it is written so;
* `readBasic_flatMap`, `readBasicLines_flatMap`, `readLiteral_append`, `readLiteralLines_append` —
  each of the readers, up to its closing quotes;
* `readText?_writeText`: the result.
-/

namespace StagePlay.Toml

/-! ### Characters between double quotes -/

/-- **What a character can be written as** between double quotes: itself, a letter after a
backslash, or its number. On several lines, a line end stands for itself as well. -/
inductive Escaped (lines : Bool) (c : Char) : List Char → Prop
  | itself (hplain : isPlain c = true) (hquote : c ≠ '"') (hslash : c ≠ '\\') : Escaped lines c [c]
  | lineEnd (hlines : lines = true) (hc : c = '\n') : Escaped lines c ['\n']
  | letter {e : Char} (he : shortEscape? e = some c) : Escaped lines c ['\\', e]
  | digits {c₁ c₂ c₃ c₄ : Char} (hds : hexChar? [c₁, c₂, c₃, c₄] = some c) :
      Escaped lines c ['\\', 'u', c₁, c₂, c₃, c₄]

/-- **The number of a control, with its digits.** There are not many of these, and each of them is
looked at. -/
theorem hexChar?_control {c : Char} (h : c < ' ' ∨ c = '\x7f') :
    hexChar? ['0', '0', hexDigit (c.toNat / 16), hexDigit (c.toNat % 16)] = some c := by
  have hall : ∀ n < 128,
      hexChar? ['0', '0', hexDigit (n / 16), hexDigit (n % 16)] = some (Char.ofNat n) := by
    decide +kernel
  have hlt : c.toNat < 128 := by
    rcases h with h | rfl
    · exact Nat.lt_trans (Char.lt_def.mp h) (by decide)
    · decide
  rw [hall c.toNat hlt, Char.ofNat_toNat]

/-- **Each character is written as it can be**, in one of these ways. -/
theorem escaped_escaped (lines : Bool) (c : Char) : Escaped lines c (escaped lines c) := by
  unfold escaped
  -- one case for each way of writing, in their order
  split_ifs with hb ht hn hlines hf hr hquote hslash hcontrol
  · exact .letter (by rw [hb]; rfl)
  · exact .letter (by rw [ht]; rfl)
  · exact .lineEnd hlines hn
  · exact .letter (by rw [hn]; rfl)
  · exact .letter (by rw [hf]; rfl)
  · exact .letter (by rw [hr]; rfl)
  · exact .letter (by rw [hquote]; rfl)
  · exact .letter (by rw [hslash]; rfl)
  · exact .digits (hexChar?_control (by simpa using hcontrol))
  · refine .itself ?_ hquote hslash
    simp only [Bool.or_eq_true, decide_eq_true_eq, not_or, Char.not_lt] at hcontrol
    simp [isPlain, hcontrol]

/-- Nothing is written as a quote by itself, so no text ends before its closing quotes. -/
theorem Escaped.eq_cons {lines : Bool} {c : Char} {w : List Char} (h : Escaped lines c w) :
    ∃ d w', w = d :: w' ∧ d ≠ '"' := by
  cases h with
  | itself _ hquote _ => exact ⟨c, [], rfl, hquote⟩
  | lineEnd => exact ⟨'\n', [], rfl, by decide⟩
  | letter => exact ⟨'\\', _, rfl, by decide⟩
  | digits => exact ⟨'\\', _, rfl, by decide⟩

/-- The letters of escapes are not the letters of numbers, and they are no blanks. -/
theorem letter_ne {e c d : Char} (he : shortEscape? e = some c) (hd : shortEscape? d = none) :
    e ≠ d := by
  rintro rfl
  rw [hd] at he
  cases he

/-- So a backslash before such a letter does not end its line. -/
theorem endsLine_letter {e c : Char} (he : shortEscape? e = some c) (rest : List Char) :
    endsLine (e :: rest) = false := by
  have hblank : (decide (e = ' ') || decide (e = '\t')) = false := by
    simp [letter_ne he (by decide : shortEscape? ' ' = none),
      letter_ne he (by decide : shortEscape? '\t' = none)]
  unfold endsLine
  rw [List.dropWhile_cons_of_neg (by simpa using hblank)]
  have hend := letter_ne he (by decide : shortEscape? '\n' = none)
  have hreturn := letter_ne he (by decide : shortEscape? '\r' = none)
  split
  · next heq => exact absurd (List.cons.inj heq).1 hend
  · next heq => exact absurd (List.cons.inj heq).1 hreturn
  · rfl

/-! ### Between double quotes -/

section

variable {c : Char} {w : List Char} (rest : List Char)

/-- **One character on one line**, however it is written, is read as itself. -/
theorem readBasic_escaped (h : Escaped false c w) :
    readBasic (w ++ rest) = push c (readBasic rest) := by
  cases h with
  | itself hplain hquote hslash =>
    change readBasic (c :: rest) = _
    rw [readBasic.eq_def]
    simp only [hquote, hslash, hplain, if_false, if_true]
  -- a line end does not stand for itself here
  | lineEnd hlines => exact nomatch hlines
  | @letter e he =>
    -- the letter is none of the two that begin a number
    have hu := letter_ne he (by decide : shortEscape? 'u' = none)
    have hU := letter_ne he (by decide : shortEscape? 'U' = none)
    change readBasic ('\\' :: e :: rest) = _
    rw [readBasic.eq_def]
    simp [he, hu, hU]
  | @digits c₁ c₂ c₃ c₄ hds =>
    change readBasic ('\\' :: 'u' :: c₁ :: c₂ :: c₃ :: c₄ :: rest) = _
    rw [readBasic.eq_def]
    simp [hds]

/-- **One character on several lines.** A backslash in front of it does not end its line, for
neither a letter nor a number begins with a blank. -/
theorem readBasicLines_escaped (h : Escaped true c w) :
    readBasicLines false (w ++ rest) = push c (readBasicLines false rest) := by
  cases h with
  | itself hplain hquote hslash =>
    have hreturn : c ≠ '\r' := by
      rintro rfl
      exact absurd hplain (by decide)
    change readBasicLines false (c :: rest) = _
    rw [readBasicLines.eq_def]
    simp [hquote, hslash, hplain, hreturn]
  | lineEnd _ hc =>
    subst hc
    change readBasicLines false ('\n' :: rest) = _
    rw [readBasicLines.eq_def]
    simp
  | @letter e he =>
    have hu := letter_ne he (by decide : shortEscape? 'u' = none)
    have hU := letter_ne he (by decide : shortEscape? 'U' = none)
    change readBasicLines false ('\\' :: e :: rest) = _
    rw [readBasicLines.eq_def]
    simp [he, hu, hU, endsLine_letter he]
  | @digits c₁ c₂ c₃ c₄ hds =>
    have hends : endsLine ('u' :: c₁ :: c₂ :: c₃ :: c₄ :: rest) = false := rfl
    change readBasicLines false ('\\' :: 'u' :: c₁ :: c₂ :: c₃ :: c₄ :: rest) = _
    rw [readBasicLines.eq_def]
    simp [hds, hends]

end

/-- **A text between double quotes on one line** is read up to the quote that closes it. -/
theorem readBasic_flatMap (cs rest : List Char) :
    readBasic (cs.flatMap (escaped false) ++ '"' :: rest) = some (cs, rest) := by
  -- on the text, one character after the other
  induction cs with
  | nil =>
    change readBasic ('"' :: rest) = _
    rw [readBasic.eq_def]
    rfl
  | cons c cs ih =>
    rw [List.flatMap_cons, List.append_assoc, readBasic_escaped _ (escaped_escaped false c), ih]
    rfl

/-- What follows three quotes is no part of the text if it begins with no quote. Up to two more
quotes would be. -/
theorem afterQuotes_of_ne {q : Char} {rest : List Char} (h : rest.head? ≠ some q) :
    afterQuotes q rest = ([], rest) := by
  match rest with
  | [] => rfl
  -- one character after the quotes is treated apart from more of them
  | [c] => exact if_neg fun hc => h (congrArg some hc)
  | c :: d :: rest => exact if_neg fun hc => h (congrArg some hc)

/-- **A text between double quotes on several lines** is read up to the three quotes that close it.
-/
theorem readBasicLines_flatMap (cs : List Char) {rest : List Char} (h : rest.head? ≠ some '"') :
    readBasicLines false (cs.flatMap (escaped true) ++ '"' :: '"' :: '"' :: rest) =
      some (cs, rest) := by
  induction cs with
  | nil =>
    -- the closing quotes, with nothing more of them behind
    change readBasicLines false ('"' :: '"' :: '"' :: rest) = _
    rw [readBasicLines.eq_def]
    simp [afterQuotes_of_ne h]
  | cons c cs ih =>
    rw [List.flatMap_cons, List.append_assoc, readBasicLines_escaped _ (escaped_escaped true c), ih]
    rfl

/-! ### Between single quotes -/

/-- **A text between single quotes on one line** stands there as it is, so it must have no quote and
no control in it. -/
theorem readLiteral_append {cs : List Char} (hplain : ∀ c ∈ cs, isPlain c = true)
    (hquote : '\'' ∉ cs) (rest : List Char) :
    readLiteral (cs ++ '\'' :: rest) = some (cs, rest) := by
  induction cs with
  | nil => rfl
  | cons c cs ih =>
    obtain ⟨hc, hcs⟩ := List.forall_mem_cons.mp hplain
    obtain ⟨hne, hnot⟩ := not_or.mp (mt List.mem_cons.mpr hquote)
    change readLiteral (c :: (cs ++ '\'' :: rest)) = _
    rw [readLiteral.eq_def]
    simp only [Ne.symm hne, hc, if_false, if_true, ih hcs hnot]
    rfl

theorem hasTripleQuote_of_cons {c : Char} {cs : List Char} (h : hasTripleQuote (c :: cs) = false) :
    hasTripleQuote cs = false := by
  unfold hasTripleQuote at h
  split at h
  · cases h
  · next heq =>
    cases heq
    exact h
  · next heq => cases heq

theorem getLast?_of_cons {c q : Char} {cs : List Char} (h : (c :: cs).getLast? ≠ some q) :
    cs.getLast? ≠ some q := by
  cases cs with
  | nil => exact nofun
  | cons d cs => rwa [List.getLast?_cons_cons] at h

/-- A single quote is one of the text where no two more follow it. -/
theorem readLiteralLines_quote {cs : List Char} (h : ∀ rest, cs ≠ '\'' :: '\'' :: rest) :
    readLiteralLines ('\'' :: cs) = push '\'' (readLiteralLines cs) := by
  rw [readLiteralLines.eq_def]
  dsimp only
  rw [if_pos rfl]
  split
  · next rest => exact absurd rfl (h rest)
  · rfl

/-- **A text between single quotes on several lines**, which must not have three quotes together,
nor one at its end. -/
theorem readLiteralLines_append {cs rest : List Char}
    (hplain : ∀ c ∈ cs, (isPlain c || c = '\n') = true) (htriple : hasTripleQuote cs = false)
    (hlast : cs.getLast? ≠ some '\'') (hrest : rest.head? ≠ some '\'') :
    readLiteralLines (cs ++ '\'' :: '\'' :: '\'' :: rest) = some (cs, rest) := by
  induction cs with
  | nil =>
    change readLiteralLines ('\'' :: '\'' :: '\'' :: rest) = _
    rw [readLiteralLines.eq_def]
    simp [afterQuotes_of_ne hrest]
  | cons c cs ih =>
    obtain ⟨hc, hcs⟩ := List.forall_mem_cons.mp hplain
    have hread := ih hcs (hasTripleQuote_of_cons htriple) (getLast?_of_cons hlast)
    change readLiteralLines (c :: (cs ++ '\'' :: '\'' :: '\'' :: rest)) = _
    by_cases hquote : c = '\''
    · subst hquote
      rw [readLiteralLines_quote, hread]
      · rfl
      · -- two more quotes would be a third one of the text, or its last one
        rintro rest' heq
        match cs with
        | [] => exact hlast rfl
        | [d] =>
          cases (List.cons.inj heq).1
          exact hlast rfl
        | d :: d' :: cs =>
          cases (List.cons.inj heq).1
          cases (List.cons.inj (List.cons.inj heq).2).1
          exact Bool.noConfusion htriple
    · have hreturn : c ≠ '\r' := by
        rintro rfl
        exact absurd hc (by decide)
      rw [readLiteralLines.eq_def]
      simp only [hquote, hreturn, hc, if_false, if_true, hread]
      rfl

/-! ### Opening quotes -/

/-- One double quote opens a text on one line. -/
theorem readText?_basic {cs : List Char} (h : ∀ rest, cs ≠ '"' :: '"' :: rest) :
    readText? ('"' :: cs) = readBasic cs := by
  unfold readText?
  split
  · next rest heq => exact absurd (List.cons.inj heq).2 (h rest)
  · next heq => rw [(List.cons.inj heq).2]
  · next heq => cases heq
  · next heq => cases heq
  · next hbasic _ _ => exact absurd rfl (hbasic cs)

/-- One single quote does as well. -/
theorem readText?_literal {cs : List Char} (h : ∀ rest, cs ≠ '\'' :: '\'' :: rest) :
    readText? ('\'' :: cs) = readLiteral cs := by
  unfold readText?
  split
  · next heq => cases heq
  · next heq => cases heq
  · next rest heq => exact absurd (List.cons.inj heq).2 (h rest)
  · next heq => rw [(List.cons.inj heq).2]
  · next hliteral => exact absurd rfl (hliteral cs)

/-- A line end counts unless it is the first character after three quotes. -/
theorem afterOpening_of_ne {cs : List Char} (hline : cs.head? ≠ some '\n')
    (hreturn : cs.head? ≠ some '\r') : afterOpening cs = cs := by
  unfold afterOpening
  split
  · exact absurd rfl hline
  · exact absurd rfl hreturn
  · rfl

theorem head?_append_ne {c q : Char} {cs rest : List Char} (hc : c ∉ cs) (hq : q ≠ c) :
    (cs ++ q :: rest).head? ≠ some c := by
  cases cs with
  | nil => exact fun h => hq (Option.some.inj h)
  | cons d cs => exact fun h => hc (List.mem_cons.mpr (.inl (Option.some.inj h).symm))

/-! ### The result -/

/-- **Why a way of writing is chosen.** Between single quotes stand only texts that fit there;
between double quotes any text can stand. -/
theorem styleOf_cases (cs : List Char) {motive : Style → Prop} (basic : motive .basic)
    (basicLines : motive .basicLines)
    (literal : fitsLiteral cs = true → '\n' ∉ cs → '\'' ∉ cs → motive .literal)
    (literalTriple : fitsLiteral cs = true → '\n' ∉ cs → motive .literalTriple)
    (literalLines : fitsLiteral cs = true → motive .literalLines) : motive (styleOf cs) := by
  unfold styleOf
  split_ifs with hliteral hlines hquote hlines
  · exact literalLines (Bool.and_eq_true_iff.mp hliteral).2
  · exact literalTriple (Bool.and_eq_true_iff.mp hliteral).2 (by simpa using hlines)
  · exact literal (Bool.and_eq_true_iff.mp hliteral).2 (by simpa using hlines)
      (by simpa using hquote)
  · exact basicLines
  · exact basic

/-- A text fits between single quotes if it has no control but line ends, no three quotes together,
and none at its end. -/
theorem fitsLiteral_iff {cs : List Char} : fitsLiteral cs = true ↔
    (∀ c ∈ cs, (isPlain c || c = '\n') = true) ∧ hasTripleQuote cs = false ∧
      cs.getLast? ≠ some '\'' := by
  unfold fitsLiteral
  rw [Bool.and_eq_true_iff, Bool.and_eq_true_iff, List.all_eq_true, Bool.not_eq_true',
    decide_eq_true_iff, and_assoc]

section Written

variable {cs rest : List Char}

/-- A text between double quotes, on one line. -/
theorem readText?_writeAs_basic (hdouble : rest.head? ≠ some '"') :
    readText? (writeAs .basic cs ++ rest) = some (cs, rest) := by
  have hwritten : writeAs .basic cs ++ rest =
      '"' :: (cs.flatMap (escaped false) ++ '"' :: rest) := by
    simp [writeAs]
  rw [hwritten, readText?_basic, readBasic_flatMap]
  -- the text has no quote at its beginning, and its closing quote stands alone
  rintro rest' heq
  cases cs with
  | nil => exact hdouble (congrArg List.head? (List.cons.inj heq).2)
  | cons c cs =>
    obtain ⟨d, w, hw, hd⟩ := (escaped_escaped false c).eq_cons
    rw [List.flatMap_cons, hw] at heq
    exact hd (List.cons.inj heq).1

/-- A text between three double quotes, on lines of its own. The line end after the opening quotes
is not part of it. -/
theorem readText?_writeAs_basicLines (hdouble : rest.head? ≠ some '"') :
    readText? (writeAs .basicLines cs ++ rest) = some (cs, rest) := by
  have hwritten : writeAs .basicLines cs ++ rest = '"' :: '"' :: '"' :: '\n' ::
      (cs.flatMap (escaped true) ++ '"' :: '"' :: '"' :: rest) := by
    simp [writeAs]
  rw [hwritten]
  exact readBasicLines_flatMap cs hdouble

/-- A text between single quotes, as it stands. -/
theorem readText?_writeAs_literal (hsingle : rest.head? ≠ some '\'') (hfits : fitsLiteral cs = true)
    (hline : '\n' ∉ cs) (hquote : '\'' ∉ cs) :
    readText? (writeAs .literal cs ++ rest) = some (cs, rest) := by
  have hplain : ∀ c ∈ cs, isPlain c = true := by
    intro c hc
    have hne : c ≠ '\n' := fun h => hline (h ▸ hc)
    simpa [hne] using (fitsLiteral_iff.mp hfits).1 c hc
  have hwritten : writeAs .literal cs ++ rest = '\'' :: (cs ++ '\'' :: rest) := by
    simp [writeAs]
  rw [hwritten, readText?_literal, readLiteral_append hplain hquote]
  rintro rest' heq
  cases cs with
  | nil => exact hsingle (congrArg List.head? (List.cons.inj heq).2)
  | cons c cs => exact hquote (List.mem_cons.mpr (.inl (List.cons.inj heq).1.symm))

/-- A text with single quotes in it, between three of them. It has no line end, so nothing is lost
behind the opening quotes. -/
theorem readText?_writeAs_literalTriple (hsingle : rest.head? ≠ some '\'')
    (hfits : fitsLiteral cs = true) (hline : '\n' ∉ cs) :
    readText? (writeAs .literalTriple cs ++ rest) = some (cs, rest) := by
  obtain ⟨hplain, htriple, hlast⟩ := fitsLiteral_iff.mp hfits
  have hwritten : writeAs .literalTriple cs ++ rest =
      '\'' :: '\'' :: '\'' :: (cs ++ '\'' :: '\'' :: '\'' :: rest) := by
    simp [writeAs]
  rw [hwritten]
  change readLiteralLines (afterOpening _) = _
  have hreturn : '\r' ∉ cs := fun hc => absurd (hplain _ hc) (by decide)
  rw [afterOpening_of_ne (head?_append_ne hline (by decide))
    (head?_append_ne hreturn (by decide)), readLiteralLines_append hplain htriple hlast hsingle]

/-- A text of several lines, as it stands, behind a line end that is not part of it. -/
theorem readText?_writeAs_literalLines (hsingle : rest.head? ≠ some '\'')
    (hfits : fitsLiteral cs = true) :
    readText? (writeAs .literalLines cs ++ rest) = some (cs, rest) := by
  obtain ⟨hplain, htriple, hlast⟩ := fitsLiteral_iff.mp hfits
  have hwritten : writeAs .literalLines cs ++ rest =
      '\'' :: '\'' :: '\'' :: '\n' :: (cs ++ '\'' :: '\'' :: '\'' :: rest) := by
    simp [writeAs]
  rw [hwritten]
  exact readLiteralLines_append hplain htriple hlast hsingle

/-- **What is written for a text is read as that text**, whatever follows it but a quote. There is
one case for each of the five ways of writing. -/
theorem readText?_writeText (s : String) (hdouble : rest.head? ≠ some '"')
    (hsingle : rest.head? ≠ some '\'') :
    readText? (writeText s ++ rest) = some (s.toList, rest) := by
  unfold writeText
  generalize s.toList = cs
  exact styleOf_cases cs (motive := fun style => readText? (writeAs style cs ++ rest) = _)
    (readText?_writeAs_basic hdouble) (readText?_writeAs_basicLines hdouble)
    (readText?_writeAs_literal hsingle) (readText?_writeAs_literalTriple hsingle)
    (readText?_writeAs_literalLines hsingle)

end Written

end StagePlay.Toml
