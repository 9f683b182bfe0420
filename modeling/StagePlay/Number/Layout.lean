import StagePlay.Number.Shortest

/-!
# The written form of a float

A float is written with the shortest digits that read back as it. What remains is a choice of
layout, which is one record:

* `Layout.document` — the form of numbers in a document: positional from `0.00001` up to sixteen
  digits before the point, always with a point there, and scientific with a signed exponent beyond;
* `Layout.plain` — the form of numbers shown as text: always positional, with a point only where a
  fraction follows.

`Layout.write` writes a float in a layout.
-/

namespace StagePlay.Number

/-- **How floats are laid out.** `positional e` tells whether a number whose leading digit stands
for `10 ^ e` is written without an exponent, and `point` whether whole numbers end in `.0`. -/
structure Layout where
  positional : Int → Bool
  point : Bool

/-- Numbers in documents. -/
def Layout.document : Layout := ⟨fun e => -5 ≤ e && e ≤ 15, true⟩

/-- Numbers shown as text. -/
def Layout.plain : Layout := ⟨fun _ => true, false⟩

/-- The decimal digits of a whole number. -/
def digitChars (n : Nat) : List Char := Nat.toDigits 10 n

/-- `n` zeros. -/
def zeros (n : Nat) : List Char := List.replicate n '0'

/-- A positive decimal without an exponent. -/
def positionalChars (point : Bool) (d : Decimal) : List Char :=
  let ds := digitChars d.digits
  if 0 ≤ d.power then
    ds ++ zeros d.power.toNat ++ (if point then ['.', '0'] else [])
  else
    let places := (-d.power).toNat
    -- the point stands among the digits, or zeros stand between it and them
    if places < ds.length then
      ds.take (ds.length - places) ++ ['.'] ++ ds.drop (ds.length - places)
    else
      ['0', '.'] ++ zeros (places - ds.length) ++ ds

/-- A positive decimal with one digit before the point and a signed exponent. -/
def scientificChars (lead : Int) (d : Decimal) : List Char :=
  let ds := digitChars d.digits
  let mantissa := match ds with
    | first :: second :: rest => first :: '.' :: second :: rest
    | short => short
  let exponent := if lead < 0 then '-' :: digitChars (-lead).toNat else '+' :: digitChars lead.toNat
  mantissa ++ ['e'] ++ exponent

namespace Layout

/-- A magnitude in this layout; zero is written positionally. -/
def magnitudeChars (l : Layout) (mantissa : Nat) (exponent : Int) : List Char :=
  if mantissa = 0 then positionalChars l.point ⟨0, 0⟩
  else
    let d := shortest mantissa exponent
    let lead := d.power + (digitChars d.digits).length - 1
    if l.positional lead then positionalChars l.point d else scientificChars lead d

/-- **A float in this layout.** A negative zero keeps its sign. -/
def chars (l : Layout) (x : Float) : List Char :=
  match Exact.ofFloat x with
  | .undefined => "NaN".toList
  | .infinite negative => if negative then "-inf".toList else "inf".toList
  | .finite negative m e => (if negative then ['-'] else []) ++ l.magnitudeChars m e

/-- The text of a float in this layout. -/
def write (l : Layout) (x : Float) : String := String.ofList (l.chars x)

end Layout

end StagePlay.Number
