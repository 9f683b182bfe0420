import StagePlay.Number.Exact

/-!
# Shortest decimals

The shortest decimal that reads back as a given float, and of those the one nearest to it. A
decimal reads back as the float exactly when it lies in the interval of reals that round to it, so
the search needs no floating point: for one digit, two digits and so on it asks whether one of the
two neighbours of the value on that decimal grid lies in the interval.

* `Decimal` — `digits * 10 ^ power`;
* `Interval` — the reals that round to a float, as whole numbers over a common denominator;
* `shortest` — the decimal of a magnitude `mantissa * 2 ^ exponent`.
-/

namespace StagePlay.Number

/-- The number `digits * 10 ^ power`. -/
structure Decimal where
  digits : Nat
  power : Int
  deriving DecidableEq, Repr

/-- **The reals that round to one float.** Its value is `value / den`; the ends of the interval,
`low / den` and `high / den`, belong to it when `closed` holds. -/
structure Interval where
  low : Nat
  value : Nat
  high : Nat
  den : Nat
  closed : Bool
  deriving DecidableEq, Repr

/-- The smallest exponent of a float, that of the least positive one. -/
def leastExponent : Int := -1074

/-- The mantissa at which the spacing of the floats changes. -/
def leastNormalMantissa : Nat := 0x10000000000000

/-- The interval of `mantissa * 2 ^ exponent`: half a step up, and half a step down, where the step
below a power of two is half as long. Ties go to the even mantissa, so an even one owns its ends. -/
def Interval.ofMagnitude (mantissa : Nat) (exponent : Int) : Interval :=
  -- in quarters of a step: 2 is half a step, and 1 is half of the shorter step below a power of two
  let down := if mantissa = leastNormalMantissa && leastExponent < exponent then 1 else 2
  let (unit, den) := Exact.fraction 1 (exponent - 2)
  { low := (4 * mantissa - down) * unit
    value := 4 * mantissa * unit
    high := (4 * mantissa + 2) * unit
    den := den
    closed := mantissa % 2 = 0 }

/-- Whether the decimal fraction `num / den` lies in the interval. -/
def Interval.contains (i : Interval) (num den : Nat) : Bool :=
  let x := num * i.den
  if i.closed then i.low * den ≤ x && x ≤ i.high * den
  else i.low * den < x && x < i.high * den

/-- `10 ^ power` as a fraction of whole numbers. -/
def powerOfTen (power : Int) : Nat × Nat :=
  (Nat.pow 10 power.toNat, Nat.pow 10 (-power).toNat)

/-- The exponent of the leading decimal digit of `num / den`: the greatest power of ten that is not
above it. The binary logarithms give it up to two. -/
def leadingExponent (num den : Nat) : Int :=
  -- `30103 / 100000` is the logarithm of 2 to the base 10, a little rounded up
  let guess := ((num.log2 : Int) - den.log2 - 1) * 30103 / 100000
  let fits (e : Int) : Bool :=
    let (p, q) := powerOfTen e
    p * den ≤ num * q
  if fits (guess + 2) then guess + 2
  else if fits (guess + 1) then guess + 1
  else if fits guess then guess
  else guess - 1

/-- The neighbour of the value on the grid of multiples of `10 ^ power` that lies in the interval,
the nearer one if both do. -/
def Interval.gridPoint? (i : Interval) (power : Int) : Option Decimal :=
  let (p, q) := powerOfTen power
  -- The value in units of the grid is `num / den`.
  let num := i.value * q
  let den := i.den * p
  let below := num / den
  let above := below + 1
  let belowFits := i.contains (below * p) q
  let aboveFits := i.contains (above * p) q
  match belowFits, aboveFits with
  -- both read back: the nearer one, and of two that are equally near the even one
  | true, true => some ⟨roundHalfEven num den, power⟩
  | true, false => some ⟨below, power⟩
  | false, true => some ⟨above, power⟩
  | false, false => none

/-- Digits without trailing zeros, which go into the power of ten. At most `fuel` are taken. -/
def Decimal.trim : Nat → Decimal → Decimal
  | 0, d => d
  | fuel + 1, d =>
    if d.digits % 10 = 0 && d.digits ≠ 0 then Decimal.trim fuel ⟨d.digits / 10, d.power + 1⟩ else d

/-- No float needs more digits than this to be told from its neighbours. -/
def mostDigits : Nat := 17

/-- **The shortest decimal** of the positive magnitude `mantissa * 2 ^ exponent`. -/
def shortest (mantissa : Nat) (exponent : Int) : Decimal :=
  let i := Interval.ofMagnitude mantissa exponent
  let lead := leadingExponent i.value i.den
  let grids := (List.range mostDigits).map fun (k : Nat) => lead - k
  match grids.findSome? i.gridPoint? with
  -- rounding up may have led to a power of ten, which ends in a zero
  | some d => d.trim mostDigits
  -- never reached: on the last grid one of the neighbours always reads back
  | none => ⟨mantissa, 0⟩

end StagePlay.Number
