import Mathlib.Data.List.TakeWhile
import StagePlay.Proofs.Number.Digits
import StagePlay.Toml.Scalar

/-!
# Whole numbers that are written and read

A row of digits alone is neither a moment, which has marks between its digits, nor a number with a
fraction or an exponent. So the digits of a whole number are read as that number, if 64 bits with a
sign hold it.

* `readMoment?_digits`, `readReal?_digits` — what a row of digits is not;
* `readWord?_digitChars`: the result.
-/

namespace StagePlay.Toml

open Number

/-- A character of some kind is not one of another kind. -/
theorem ne_of_kind {kind : Char → Bool} {c d : Char} (hc : kind c = true) (hd : kind d = false) :
    c ≠ d := by
  rintro rfl
  rw [hc] at hd
  cases hd

section Digits

variable {ds : List Char} (hds : ∀ c ∈ ds, isDigit c = true)

include hds

/-! ### Moments -/

/-- A mark is no digit, so none is found where a row of digits goes on. -/
theorem expect?_digits {mark : Char} (hmark : isDigit mark = false) : expect? mark ds = none := by
  cases ds with
  | nil => rfl
  | cons c cs => exact if_neg (ne_of_kind (hds c List.mem_cons_self) hmark)

/-- What follows a field is digits again. -/
theorem readField?_digits {count low high n : Nat} {rest : List Char}
    (h : readField? count low high ds = some (n, rest)) : ∀ c ∈ rest, isDigit c = true := by
  unfold readField? at h
  dsimp only at h
  split at h
  · cases h
    exact fun c hc => hds c (List.mem_of_mem_drop hc)
  · cases h

/-- A row of digits is no date: digits follow the year, where a mark should be. -/
theorem readDate?_digits : readDate? ds = none := by
  unfold readDate?
  cases hyear : readField? 4 0 9999 ds with
  | none => rfl
  | some year =>
    -- digits follow the year, where a mark should be
    have hmark := expect?_digits (readField?_digits hds hyear) (by decide : isDigit '-' = false)
    simp only [Option.bind_eq_bind, Option.bind_some, hmark, Option.bind_none]

/-- It is no time of day either, for digits follow the hour. -/
theorem readTime?_digits : readTime? ds = none := by
  unfold readTime?
  cases hhour : readField? 2 0 23 ds with
  | none => rfl
  | some hour =>
    have hmark := expect?_digits (readField?_digits hds hhour) (by decide : isDigit ':' = false)
    simp only [Option.bind_eq_bind, Option.bind_some, hmark, Option.bind_none]

/-- **A row of digits is no moment**, which would begin with a date or a time. -/
theorem readMoment?_digits : readMoment? ds = none := by
  unfold readMoment?
  rw [readDate?_digits hds, readTime?_digits hds]

/-! ### Numbers -/

/-- A word with another character than digits is another word. -/
theorem ne_of_mem (word : List Char) {c : Char} (hc : c ∈ word) (hdigit : isDigit c = false) :
    ds ≠ word := by
  rintro rfl
  exact ne_of_kind (hds c hc) hdigit rfl

/-- Digits are not split at a mark. -/
theorem splitAtFirst_digits (isMark : Char → Bool)
    (hmark : ∀ c, isDigit c = true → isMark c = false) : splitAtFirst isMark ds = (ds, none) := by
  unfold splitAtFirst
  rw [List.dropWhile_eq_nil_iff.mpr fun c hc => by rw [hmark c (hds c hc)]; rfl]

/-- **A row of digits has no fraction and no exponent**, and is none of the two words that stand for
numbers. So it is not read as a number with a point. -/
theorem readReal?_digits : readReal? ds = none := by
  have hpower := splitAtFirst_digits hds (fun c => c = 'e' || c = 'E') fun c hc => by
    simp [ne_of_kind hc (by decide : isDigit 'e' = false),
      ne_of_kind hc (by decide : isDigit 'E' = false)]
  have hpoint := splitAtFirst_digits hds (fun c => c = '.') fun c hc => by
    simp [ne_of_kind hc (by decide : isDigit '.' = false)]
  have hinf := ne_of_mem hds "inf".toList (c := 'i') (by decide) (by decide)
  have hnan := ne_of_mem hds "nan".toList (c := 'n') (by decide) (by decide)
  unfold readReal?
  simp only [splitSign_digits hds, hinf, hnan, hpower, hpoint, if_false]
  rfl

/-- **A row of digits** has no marks to group them, and is its own digits. -/
theorem ungroup?_digits (hne : ds ≠ []) : ungroup? isDigit ds = some ds := by
  induction ds with
  | nil => exact absurd rfl hne
  | cons c cs ih =>
    obtain ⟨hc, hcs⟩ := List.forall_mem_cons.mp hds
    match cs with
    | [] => exact if_pos hc
    | d :: cs =>
      have hmark := ne_of_kind (hcs d List.mem_cons_self) (by decide : isDigit '_' = false)
      have hrest := ih hcs (List.cons_ne_nil d cs)
      rw [ungroup?.eq_def]
      simp [hmark, hc, hrest]

end Digits

/-! ### Words -/

/-- The digits of a number begin with no zero that would not be allowed. -/
theorem readWhole?_digitChars (n : Nat) : readWhole? (digitChars n) = some (digitChars n) := by
  unfold readWhole?
  rw [ungroup?_digits (fun c => isDigit_of_mem_digitChars) (digitChars_ne_nil n)]
  refine Option.filter_some_pos ?_
  rcases Nat.eq_zero_or_pos n with rfl | hn
  · rfl
  · simp [head?_digitChars hn]

theorem isSigned_natCast {n : Nat} (hn : n < signedBound) : isSigned (n : Int) = true := by
  have hlow : -(signedBound : Int) ≤ n :=
    Int.le_trans (Int.neg_nonpos_of_nonneg (Int.natCast_nonneg _)) (Int.natCast_nonneg _)
  simp only [isSigned, Bool.and_eq_true, decide_eq_true_eq]
  exact ⟨hlow, Int.ofNat_lt.mpr hn⟩

/-- **The digits of a number** are read as that number, if 64 bits with a sign hold it. They are
digits to the base ten, as the marks of the other bases are letters. -/
theorem readInt?_digitChars {n : Nat} (hn : n < signedBound) :
    readInt? (digitChars n) = some (n : Int) := by
  have hds : ∀ c ∈ digitChars n, isDigit c = true := fun c => isDigit_of_mem_digitChars
  have hfits : fits64? (n : Int) = some (n : Int) := by
    unfold fits64?
    rw [if_pos (isSigned_natCast hn)]
  unfold readInt?
  -- the marks of the other bases are letters
  split
  · next heq => exact absurd heq (ne_of_mem hds _ (c := 'x') (by simp) (by decide))
  · next heq => exact absurd heq (ne_of_mem hds _ (c := 'o') (by simp) (by decide))
  · next heq => exact absurd heq (ne_of_mem hds _ (c := 'b') (by simp) (by decide))
  · rw [splitSign_digits hds]
    dsimp only
    rw [readWhole?_digitChars, Option.bind_some, digitsValue_digitChars, if_neg Bool.false_ne_true,
      hfits]

/-- **A number is written and read.** All the other things that a word can be are tried before or
after, and its digits are none of them. -/
theorem readWord?_digitChars {n : Nat} (hn : n < signedBound) :
    readWord? (digitChars n) = some (.int n) := by
  have hds : ∀ c ∈ digitChars n, isDigit c = true := fun c => isDigit_of_mem_digitChars
  have htrue := ne_of_mem hds "true".toList (c := 't') (by decide) (by decide)
  have hfalse := ne_of_mem hds "false".toList (c := 'f') (by decide) (by decide)
  unfold readWord?
  rw [if_neg htrue, if_neg hfalse, readMoment?_digits hds, readReal?_digits hds,
    readInt?_digitChars hn]
  rfl

theorem isWordChar_of_isDigit {c : Char} (hc : isDigit c = true) : isWordChar c = true := by
  rw [isDigit_eq] at hc
  simp [isWordChar, Char.isAlphanum, hc]

/-- A row of digits up to the end of its line is a word. Only a day is written with a blank in it,
and a row of digits begins no day. -/
theorem splitWord_digits {ds : List Char} (hds : ∀ c ∈ ds, isDigit c = true) (rest : List Char) :
    splitWord (ds ++ '\n' :: rest) = (ds, '\n' :: rest) := by
  have hword : ∀ c ∈ ds, isWordChar c = true := fun c hc => isWordChar_of_isDigit (hds c hc)
  have htake : (ds ++ '\n' :: rest).takeWhile isWordChar = ds := by
    rw [List.takeWhile_append_of_pos hword, List.takeWhile_cons_of_neg (by decide),
      List.append_nil]
  have hdrop : (ds ++ '\n' :: rest).dropWhile isWordChar = '\n' :: rest := by
    rw [List.dropWhile_append_of_pos hword, List.dropWhile_cons_of_neg (by decide)]
  unfold splitWord
  rw [htake, hdrop]
  dsimp only
  -- only a day could go on behind the word
  rw [readMoment?_digits hds]

end StagePlay.Toml
