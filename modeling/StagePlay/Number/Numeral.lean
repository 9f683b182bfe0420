import StagePlay.Number.Exact

/-!
# Numerals

Reading numbers from text. A decimal numeral stands for the float nearest to its value, however many
digits it has and however large its exponent is:

* `ofDecimal` — the float nearest to `± digits * 10 ^ power`;
* `readFloat?` — a whole text as a float: a sign, digits with a point anywhere among them, an
  exponent, or one of the words for the values that are not finite;
* `readNat?`, `readInt?` — a whole text as a whole number, with a leading sign.
-/

namespace StagePlay.Number

/-- The decimal digits. -/
def isDigit (c : Char) : Bool := '0' ≤ c && c ≤ '9'

/-- The value of one digit. -/
def digitValue (c : Char) : Nat := c.toNat - '0'.toNat

/-- The number that a row of digits stands for; an empty row is 0. -/
def digitsValue (ds : List Char) : Nat := ds.foldl (fun n c => 10 * n + digitValue c) 0

/-- The float nearest to `± digits * 10 ^ power`. -/
def ofDecimal (negative : Bool) (digits : Nat) (power : Int) : Float :=
  let x := Float.ofScientific digits (power < 0) power.natAbs
  if negative then -x else x

/-- A leading sign and what follows it; a text without one is positive. -/
def splitSign : List Char → Bool × List Char
  | '-' :: rest => (true, rest)
  | '+' :: rest => (false, rest)
  | cs => (false, cs)

/-- The exponent part of a numeral: nothing, or `e` with a signed row of digits. -/
def readExponent? : List Char → Option Int
  | [] => some 0
  | c :: rest =>
    let (negative, ds) := splitSign rest
    if (c = 'e' || c = 'E') && !ds.isEmpty && ds.all isDigit then
      some (if negative then -(digitsValue ds : Int) else digitsValue ds)
    else none

/-- A numeral without its sign: digits, perhaps a point among them, and an exponent. -/
def readMagnitude? (negative : Bool) (cs : List Char) : Option Float :=
  let whole := cs.takeWhile isDigit
  let rest := cs.dropWhile isDigit
  let (places, tail) := match rest with
    | '.' :: after => (after.takeWhile isDigit, after.dropWhile isDigit)
    | _ => ([], rest)
  if whole.isEmpty && places.isEmpty then none
  else
    (readExponent? tail).map fun e =>
      -- the digits after the point are divided away by as many powers of ten
      ofDecimal negative (digitsValue (whole ++ places)) (e - places.length)

/-- **A whole text as a float.** The words `inf`, `infinity` and `nan` are read in any case. -/
def readFloat? (cs : List Char) : Option Float :=
  let (negative, body) := splitSign cs
  let word := String.ofList (body.map Char.toLower)
  if word = "inf" || word = "infinity" then
    some (if negative then -(1.0 / 0.0) else 1.0 / 0.0)
  else if word = "nan" then some (0.0 / 0.0)
  else readMagnitude? negative body

/-- A whole text as a natural number below `bound`; a plus sign may precede it. -/
def readNat? (bound : Nat) (cs : List Char) : Option Nat :=
  let ds := match cs with
    | '+' :: rest => rest
    | _ => cs
  if !ds.isEmpty && ds.all isDigit && digitsValue ds < bound then some (digitsValue ds) else none

/-- A whole text as an integer of 64 bits with a sign. -/
def readInt? (cs : List Char) : Option Int :=
  let (negative, ds) := splitSign cs
  if ds.isEmpty || !ds.all isDigit then none
  else
    let n := digitsValue ds
    let i : Int := if negative then -(n : Int) else n
    if isSigned i then some i else none

end StagePlay.Number
