import StagePlay.Number.Layout
import StagePlay.Number.Numeral
import StagePlay.Toml.Value

/-!
# Numbers and moments in a settings file

A value that is neither a text nor made of other values is one word: a truth value, a number, or a
moment in time. `readWord?` reads a word as what it is. Whole numbers have 64 bits with a sign, and
may be written in four bases; digits may be grouped by underscores.

`Moment` is a date, a time of day, or both with a distance from universal time. `readMoment?` reads
one, and `Moment.write` gives it its one written form.
-/

namespace StagePlay.Toml

open Number

/-! ### Numbers -/

/-- A row of digits, in which single underscores may stand between two digits. -/
def ungroup? (isDigit : Char → Bool) : List Char → Option (List Char)
  | [] => none
  | [c] => if isDigit c then some [c] else none
  | c :: '_' :: cs => if isDigit c then (ungroup? isDigit cs).map (c :: ·) else none
  | c :: cs => if isDigit c then (ungroup? isDigit cs).map (c :: ·) else none

/-- A row of decimal digits that does not begin with a zero, unless it is one. -/
def readWhole? (cs : List Char) : Option (List Char) :=
  (ungroup? isDigit cs).filter fun ds => ds.length = 1 || ds.head? ≠ some '0'

/-- The value of a digit in one of the bases. -/
def anyDigitValue? (c : Char) : Option Nat :=
  if isDigit c then some (digitValue c)
  else if 'a' ≤ c && c ≤ 'f' then some (c.toNat - 'a'.toNat + 10)
  else if 'A' ≤ c && c ≤ 'F' then some (c.toNat - 'A'.toNat + 10)
  else none

/-- The number that a row of digits stands for in a base. -/
def readInBase? (base : Nat) (cs : List Char) : Option Nat := do
  let ds ← ungroup? (fun c => (anyDigitValue? c).any fun d => d < base) cs
  pure (ds.foldl (fun n c => base * n + (anyDigitValue? c).getD 0) 0)

/-- A whole number of 64 bits with a sign. -/
def fits64? (i : Int) : Option Int := if isSigned i then some i else none

/-- A whole number. -/
def readInt? (cs : List Char) : Option Int :=
  match cs with
  | '0' :: 'x' :: ds => (readInBase? 16 ds).bind fun n => fits64? n
  | '0' :: 'o' :: ds => (readInBase? 8 ds).bind fun n => fits64? n
  | '0' :: 'b' :: ds => (readInBase? 2 ds).bind fun n => fits64? n
  | _ =>
    let (negative, ds) := splitSign cs
    (readWhole? ds).bind fun ds =>
      fits64? (if negative then -(digitsValue ds : Int) else digitsValue ds)

/-- The exponent of a number, after its mark. -/
def readPower? (cs : List Char) : Option Int :=
  let (negative, ds) := splitSign cs
  (ungroup? isDigit ds).map fun ds => if negative then -(digitsValue ds : Int) else digitsValue ds

/-- Characters up to a first one of some kind, and those after it if there is one. -/
def splitAtFirst (isMark : Char → Bool) (cs : List Char) : List Char × Option (List Char) :=
  match cs.dropWhile fun c => !isMark c with
  | [] => (cs, none)
  | _ :: rest => (cs.takeWhile fun c => !isMark c, some rest)

/-- A number with a fraction or an exponent. What is beyond every float is no number. -/
def readReal? (cs : List Char) : Option Float := do
  let (negative, body) := splitSign cs
  let infinity : Float := 1.0 / 0.0
  if body = "inf".toList then pure (if negative then -infinity else infinity)
  else if body = "nan".toList then pure (0.0 / 0.0)
  else
    let (mantissa, power) := splitAtFirst (fun c => c = 'e' || c = 'E') body
    let (whole, places) := splitAtFirst (fun c => c = '.') mantissa
    if power.isNone && places.isNone then none
    else
      let whole ← readWhole? whole
      let places ← places.elim (some []) (ungroup? isDigit)
      let power ← power.elim (some 0) readPower?
      let x := ofDecimal negative (digitsValue (whole ++ places)) (power - places.length)
      if x == infinity then none else pure x

/-! ### Moments -/

/-- A day of a calendar. -/
structure Date where
  year : Nat
  month : Nat
  day : Nat
  deriving DecidableEq, Repr

/-- A time of day, with the digits of the fraction of its second. -/
structure Time where
  hour : Nat
  minute : Nat
  second : Nat
  fraction : List Char
  deriving DecidableEq, Repr

/-- A distance from universal time: none, or hours and minutes ahead or behind. -/
inductive Offset where
  | universal
  | shifted (behind : Bool) (hours minutes : Nat)
  deriving DecidableEq, Repr

/-- **A moment**: a day, a time of day, or a time on a day. -/
inductive Moment where
  | date (d : Date)
  | time (t : Time)
  | both (d : Date) (t : Time) (o : Option Offset)
  deriving DecidableEq, Repr

/-- The number of days of a month. -/
def daysOf (year month : Nat) : Nat :=
  if month = 2 then
    if year % 4 = 0 && (year % 100 ≠ 0 || year % 400 = 0) then 29 else 28
  else if month = 4 || month = 6 || month = 9 || month = 11 then 30
  else 31

/-- Exactly `count` digits in a range, and what follows them. -/
def readField? (count low high : Nat) (cs : List Char) : Option (Nat × List Char) :=
  let ds := cs.take count
  let n := digitsValue ds
  if ds.length = count && ds.all isDigit && low ≤ n && n ≤ high then some (n, cs.drop count)
  else none

/-- A character that has to come next. -/
def expect? (c : Char) : List Char → Option (List Char)
  | [] => none
  | d :: cs => if d = c then some cs else none

/-- A day, and what follows it. -/
def readDate? (cs : List Char) : Option (Date × List Char) := do
  let (year, cs) ← readField? 4 0 9999 cs
  let cs ← expect? '-' cs
  let (month, cs) ← readField? 2 1 12 cs
  let cs ← expect? '-' cs
  let (day, cs) ← readField? 2 1 (daysOf year month) cs
  pure (⟨year, month, day⟩, cs)

/-- A time of day, and what follows it. Of the fraction nine digits count. -/
def readTime? (cs : List Char) : Option (Time × List Char) := do
  let (hour, cs) ← readField? 2 0 23 cs
  let cs ← expect? ':' cs
  let (minute, cs) ← readField? 2 0 59 cs
  let cs ← expect? ':' cs
  let (second, cs) ← readField? 2 0 60 cs
  match cs with
  | '.' :: cs =>
    let ds := cs.takeWhile isDigit
    if ds.isEmpty then none
    else pure (⟨hour, minute, second, ds.take 9⟩, cs.dropWhile isDigit)
  | _ => pure (⟨hour, minute, second, []⟩, cs)

/-- A distance from universal time that fills the rest of a word, which may also be empty. -/
def readOffset? : List Char → Option (Option Offset)
  | [] => some none
  | ['Z'] => some (some .universal)
  | ['z'] => some (some .universal)
  | sign :: cs => do
    if sign = '+' || sign = '-' then
      let (hours, cs) ← readField? 2 0 23 cs
      let cs ← expect? ':' cs
      let (minutes, cs) ← readField? 2 0 59 cs
      if cs.isEmpty then pure (some (.shifted (sign = '-') hours minutes)) else none
    else none

/-- **A moment** that fills a word. A time on a day follows it after the letter T or one blank. -/
def readMoment? (cs : List Char) : Option Moment :=
  match readDate? cs with
  | some (d, []) => some (.date d)
  | some (d, mark :: cs) =>
    if mark = 'T' || mark = 't' || mark = ' ' then do
      let (t, cs) ← readTime? cs
      let o ← readOffset? cs
      pure (.both d t o)
    else none
  | none =>
    match readTime? cs with
    | some (t, []) => some (.time t)
    | _ => none

/-- A number with at least `width` digits. -/
def padded (width n : Nat) : List Char :=
  let ds := digitChars n
  List.replicate (width - ds.length) '0' ++ ds

/-- The written form of a day. -/
def Date.write (d : Date) : List Char :=
  padded 4 d.year ++ ['-'] ++ padded 2 d.month ++ ['-'] ++ padded 2 d.day

/-- The written form of a time of day. Zeros at the end of a fraction are left out. -/
def Time.write (t : Time) : List Char :=
  let fraction := (t.fraction.reverse.dropWhile fun c => c = '0').reverse
  padded 2 t.hour ++ [':'] ++ padded 2 t.minute ++ [':'] ++ padded 2 t.second ++
    if fraction.isEmpty then [] else '.' :: fraction

/-- The written form of a distance from universal time. -/
def Offset.write : Offset → List Char
  | .universal => ['Z']
  | .shifted behind hours minutes =>
    [if behind && (hours, minutes) ≠ (0, 0) then '-' else '+'] ++ padded 2 hours ++ [':'] ++
      padded 2 minutes

/-- **The written form of a moment.** -/
def Moment.write : Moment → String
  | .date d => String.ofList d.write
  | .time t => String.ofList t.write
  | .both d t o => String.ofList (d.write ++ ['T'] ++ t.write ++ o.elim [] Offset.write)

/-! ### Words -/

/-- Characters of a word. -/
def isWordChar (c : Char) : Bool :=
  c.isAlphanum || c = '+' || c = '-' || c = '_' || c = '.' || c = ':'

/-- The first word of a text, and what follows it. A day takes a time that follows after a blank
into its word. -/
def splitWord (cs : List Char) : List Char × List Char :=
  let word := cs.takeWhile isWordChar
  let rest := cs.dropWhile isWordChar
  match readMoment? word, rest with
  | some (.date _), ' ' :: after =>
    let next := after.takeWhile isWordChar
    -- what follows a day and a blank is its time, or the file is malformed
    if next.isEmpty then (word, rest) else (word ++ ' ' :: next, after.dropWhile isWordChar)
  | _, _ => (word, rest)

/-- **A word as a value.** -/
def readWord? (word : List Char) : Option Value :=
  if word = "true".toList then some (.bool true)
  else if word = "false".toList then some (.bool false)
  else match readMoment? word with
    | some m => some (.moment m.write)
    | none =>
      match readReal? word with
      | some x => some (.real x)
      | none => (readInt? word).map .int

end StagePlay.Toml
