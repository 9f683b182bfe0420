import StagePlay.Number.Word

/-!
# The exact value of a float

A finite float is a whole number times a power of two. `Exact.ofFloat` gives that value, and every
rounding of the library is taken from it by whole-number arithmetic, so that no rounding is itself
rounded:

* `Exact.floor` — the greatest whole number that is not above the value;
* `Exact.nearest` — the nearest whole number, a half going away from zero;
* `Exact.nearestEven` — the nearest multiple of a unit fraction, a half going to the even neighbour;
* `nearestNat` — the nearest natural number up to some bound.

`roundHalfUp` and `roundHalfEven` are the two ways of dividing that these use.
-/

namespace StagePlay.Number

/-- **The exact value** of a float: no number, an infinity, or `± mantissa * 2 ^ exponent`. A zero
keeps its sign. -/
inductive Exact where
  | undefined
  | infinite (negative : Bool)
  | finite (negative : Bool) (mantissa : Nat) (exponent : Int)
  deriving DecidableEq, Repr

/-- The sign of an unpacked float, as a flag. -/
def isNegative : Float.Model.UnpackedFloat.Sign → Bool
  | .negative => true
  | .positive => false

/-- The value of a float, read from its bits. -/
def Exact.ofFloat (x : Float) : Exact :=
  match Float.Model.UnpackedFloat.unpack Float.Model.Format.binary64 x.toBits.toBitVec with
  | .notANumber => .undefined
  | .infinity s => .infinite (isNegative s)
  | .zero s => .finite (isNegative s) 0 0
  | .finite s m e _ => .finite (isNegative s) m e

/-- Division to the nearest whole number, a half going up. -/
def roundHalfUp (num den : Nat) : Nat := (2 * num + den) / (2 * den)

/-- Division to the nearest whole number, a half going to the even neighbour. -/
def roundHalfEven (num den : Nat) : Nat :=
  let q := num / den
  let twice := 2 * (num % den)
  if twice < den then q
  else if den < twice then q + 1
  -- a tie: the even one of the two neighbours
  else if q % 2 = 0 then q else q + 1

namespace Exact

/-- The magnitude `mantissa * 2 ^ exponent` as a fraction of whole numbers. -/
def fraction (mantissa : Nat) (exponent : Int) : Nat × Nat :=
  (mantissa <<< exponent.toNat, 1 <<< (-exponent).toNat)

/-- The greatest whole number that is not above the value; 0 where there is no value. -/
def floor : Exact → Int
  | .finite negative m e =>
    let (num, den) := fraction m e
    Int.fdiv (if negative then -(num : Int) else num) den
  | _ => 0

/-- The nearest whole number to the magnitude of a value, a half going away from zero; 0 where
there is no value. -/
def nearest : Exact → Nat
  | .finite _ m e =>
    let (num, den) := fraction m e
    roundHalfUp num den
  | _ => 0

/-- The magnitude in units of `1 / parts`, a half going to the even neighbour. -/
def nearestEven (parts : Nat) : Exact → Nat
  | .finite _ m e =>
    let (num, den) := fraction m e
    roundHalfEven (num * parts) den
  | _ => 0

end Exact

/-- **The nearest natural number** up to `most`, a half going away from zero. What is not positive
is 0, and what is beyond `most` is `most`. -/
def nearestNat (most : Nat) (x : Float) : Nat :=
  match Exact.ofFloat x with
  | .undefined => 0
  | .infinite negative => if negative then 0 else most
  | .finite negative m e => if negative then 0 else min (Exact.finite false m e).nearest most

/-- Floats that are numbers and not infinite. -/
def isFinite (x : Float) : Bool := x.isFinite

/-- `x` kept between `low` and `high`; no number stays no number. -/
def clamp (low high x : Float) : Float :=
  if x < low then low else if high < x then high else x

end StagePlay.Number
