import StagePlay.Number.Layout

/-!
# Identifiers of runs

An identifier is a number of 128 bits. It is written in lower case as five groups of hexadecimal
digits with hyphens between them. It is read without hyphens as well, and with hyphens also between
braces or after `urn:uuid:`.

`Uuid.read` reads an identifier or says what is wrong (`Flaw`), and `Uuid.write` writes one.
-/

namespace StagePlay

open Number

/-- **An identifier.** -/
structure Uuid where
  bits : BitVec 128
  deriving DecidableEq, Repr

namespace Uuid

/-! ### Writing -/

/-- The last `count` hexadecimal digits of a number, the highest first. -/
def hexChars : Nat → Nat → List Char
  | 0, _ => []
  | count + 1, n => hexChars count (n / 16) ++ [Nat.digitChar (n % 16)]

/-- The lengths of the groups. -/
def groupLengths : List Nat := [8, 4, 4, 4, 12]

/-- Characters in groups of the given lengths, with hyphens between them. -/
def grouped : List Nat → List Char → List Char
  | [], _ => []
  | [n], cs => cs.take n
  | n :: ns, cs => cs.take n ++ '-' :: grouped ns (cs.drop n)

/-- **The written form of an identifier.** -/
def write (u : Uuid) : String := String.ofList (grouped groupLengths (hexChars 32 u.bits.toNat))

/-! ### Reading -/

/-- What keeps a text from being an identifier. Places in it are counted in bytes from 1, and groups
from 0. -/
inductive Flaw where
  | character (c : Char) (place : Nat)
  | length (found : Nat)
  | groupCount (found : Nat)
  | groupLength (group expected found : Nat)
  deriving DecidableEq, Repr

/-- What is wrong, in words. -/
def Flaw.message : Flaw → String
  | .character c place =>
    "invalid character: expected an optional prefix of `urn:uuid:` followed by [0-9a-fA-F-], "
      ++ "found `" ++ String.singleton c ++ "` at " ++ String.ofList (digitChars place)
  | .length found =>
    "invalid length: expected length 32 for simple format, found "
      ++ String.ofList (digitChars found)
  | .groupCount found =>
    "invalid group count: expected 5, found " ++ String.ofList (digitChars found)
  | .groupLength group expected found =>
    "invalid group length in group " ++ String.ofList (digitChars group) ++ ": expected "
      ++ String.ofList (digitChars expected) ++ ", found " ++ String.ofList (digitChars found)

/-- The value of a hexadecimal digit. -/
def hexValue? (c : Char) : Option Nat :=
  if '0' ≤ c && c ≤ '9' then some (c.toNat - '0'.toNat)
  else if 'a' ≤ c && c ≤ 'f' then some (c.toNat - 'a'.toNat + 10)
  else if 'A' ≤ c && c ≤ 'F' then some (c.toNat - 'A'.toNat + 10)
  else none

/-- The number that hexadecimal digits stand for. -/
def hexNumber? (cs : List Char) : Option Nat :=
  cs.foldlM (fun n c => (hexValue? c).map fun d => 16 * n + d) 0

/-- The number of exactly 32 digits, as an identifier. -/
def ofDigits? (cs : List Char) : Option Uuid :=
  if cs.length = 32 then (hexNumber? cs).map fun n => ⟨BitVec.ofNat 128 n⟩ else none

/-- The digits of five groups with hyphens between them, where the hyphens stand in their places. -/
def ungroup? (cs : List Char) : Option (List Char) :=
  if cs.length = 36 && [8, 13, 18, 23].all fun i => cs[i]? = some '-' then
    some (cs.take 8 ++ (cs.drop 9).take 4 ++ (cs.drop 14).take 4 ++ (cs.drop 19).take 4
      ++ cs.drop 24)
  else none

/-- What stands in front of the groups of an identifier that says what it is. -/
def label : List Char := "urn:uuid:".toList

/-- The part of a text between braces. -/
def unbraced? (cs : List Char) : Option (List Char) :=
  match cs with
  | '\x7b' :: rest => if rest.getLast? = some '\x7d' then some rest.dropLast else none
  | _ => none

/-- The part of a text after the label. -/
def unlabelled? (cs : List Char) : Option (List Char) :=
  if label.isPrefixOf cs then some (cs.drop label.length) else none

/-- The bytes that a text takes. -/
def byteCount (cs : List Char) : Nat := (String.ofList cs).utf8ByteSize

/-- The part of a text that should be made of groups: a text of the right length loses its braces or
its label. -/
def bodyOf (cs : List Char) : List Char :=
  if byteCount cs = 38 then (unbraced? cs).getD cs
  else if byteCount cs = 45 then (unlabelled? cs).getD cs
  else cs

/-- The first character that no identifier has, with its place in bytes. -/
def strangeChar? : Nat → List Char → Option (Char × Nat)
  | _, [] => none
  | place, c :: cs =>
    if c = '-' || (hexValue? c).isSome then strangeChar? (place + 1) cs
    else some (c, place)

/-- The characters between hyphens. -/
def groupsOf : List Char → List (List Char)
  | [] => [[]]
  | c :: cs =>
    if c = '-' then [] :: groupsOf cs
    else match groupsOf cs with
      | g :: gs => (c :: g) :: gs
      | [] => [[c]]

/-- The first group of a wrong length, where there are five groups. The last one is blamed if the
others are right, with what a text of `total` bytes leaves for it. -/
def wrongGroup (total : Nat) : Nat → List (Nat × List Char) → Flaw
  | group, (expected, g) :: groups =>
    if groups.isEmpty then .groupLength group expected (total - 24)
    else if g.length ≠ expected then .groupLength group expected g.length
    else wrongGroup total (group + 1) groups
  | group, [] => .groupLength group 0 0

/-- **What is wrong** with a text that is no identifier. -/
def flaw (cs : List Char) : Flaw :=
  let (body, before) := match unbraced? cs with
    | some body => (body, some 1)
    | none => match unlabelled? cs with
      | some body => (body, some label.length)
      | none => (cs, none)
  match strangeChar? (before.getD 0 + 1) body with
  | some (c, place) => .character c place
  | none =>
    let groups := groupsOf body
    if groups.length = 1 && before.isNone then .length cs.length
    else if groups.length ≠ 5 then .groupCount groups.length
    else wrongGroup cs.length 0 (groupLengths.zip groups)

/-- **Reading an identifier.** -/
def read (s : String) : Except Flaw Uuid :=
  let cs := s.toList
  let body := bodyOf cs
  let digits? := if byteCount cs = 32 then some cs else ungroup? body
  match digits?.bind ofDigits? with
  | some u => .ok u
  | none => .error (flaw body)

end Uuid

end StagePlay
