/-!
# Whole numbers of 64 bits

How far the whole numbers reach that 64 bits hold: `wordBound` without a sign, `signedBound` with
one.
-/

namespace StagePlay.Number

/-- The least natural number that 64 bits do not hold. -/
def wordBound : Nat := 0x10000000000000000

/-- The greatest natural number that 64 bits hold. -/
def mostWord : Nat := wordBound - 1

/-- The least natural number that 64 bits with a sign do not hold. -/
def signedBound : Nat := 0x8000000000000000

/-- Whether 64 bits with a sign hold a whole number. -/
def isSigned (i : Int) : Bool := -(signedBound : Int) ≤ i && i < signedBound

end StagePlay.Number
