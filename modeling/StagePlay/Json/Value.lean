import StagePlay.Number.Layout

/-!
# Documents as values

`Value` is a whole document as it is written. Numbers are whole numbers or floats (`Numeral`), and
objects are lists of members in the order in which they are written.

`Value.print` writes a document without spaces in front of a given rest, and `Value.pretty` with one
member a line. A float that is not finite has no written form and is written as `null`.
-/

namespace StagePlay.Json

open StagePlay.Number

/-- A number of a document. -/
inductive Numeral where
  | int (i : Int)
  | real (x : Float)
  deriving DecidableEq, Repr

/-- The float nearest to a number. -/
def Numeral.toFloat : Numeral → Float
  | .int i => Float.ofInt i
  | .real x => x

/-- **A document.** -/
inductive Value where
  | null
  | bool (b : Bool)
  | number (n : Numeral)
  | text (s : String)
  | array (items : List Value)
  | object (members : List (String × Value))
  deriving Repr

/-- A natural number as a document. -/
def Value.nat (n : Nat) : Value := .number (.int n)

/-- A float as a document. -/
def Value.float (x : Float) : Value := .number (.real x)

/-- An optional value, `null` where there is none. -/
def Value.orNull {α : Type} (f : α → Value) : Option α → Value
  | none => .null
  | some a => f a

/-! ### Writing -/

/-- One character inside a written text: controls, the quote and the backslash are escaped. -/
def escapedChar (c : Char) : List Char :=
  if c = '"' then ['\\', '"']
  else if c = '\\' then ['\\', '\\']
  else if c = '\x08' then ['\\', 'b']
  else if c = '\x0c' then ['\\', 'f']
  else if c = '\n' then ['\\', 'n']
  else if c = '\r' then ['\\', 'r']
  else if c = '\t' then ['\\', 't']
  else if c.toNat < 0x20 then
    ['\\', 'u', '0', '0', Nat.digitChar (c.toNat / 16), Nat.digitChar (c.toNat % 16)]
  else [c]

/-- A text between quotes, in front of `rest`. -/
def printText (s : String) (rest : List Char) : List Char :=
  '"' :: (s.toList.flatMap escapedChar ++ '"' :: rest)

/-- An integer, in front of `rest`. -/
def printInt (i : Int) (rest : List Char) : List Char :=
  if i < 0 then '-' :: (digitChars i.natAbs ++ rest) else digitChars i.natAbs ++ rest

/-- A number, in front of `rest`. -/
def Numeral.print (n : Numeral) (rest : List Char) : List Char :=
  match n with
  | .int i => printInt i rest
  | .real x => if isFinite x then Layout.document.chars x ++ rest else "null".toList ++ rest

mutual

/-- **A document without spaces**, in front of `rest`. -/
def Value.print : Value → List Char → List Char
  | .null, rest => "null".toList ++ rest
  | .bool true, rest => "true".toList ++ rest
  | .bool false, rest => "false".toList ++ rest
  | .number n, rest => n.print rest
  | .text s, rest => printText s rest
  | .array [], rest => '[' :: ']' :: rest
  | .array (item :: items), rest => '[' :: item.print (printItems items (']' :: rest))
  | .object [], rest => '{' :: '}' :: rest
  | .object ((key, value) :: members), rest =>
    '{' :: printText key (':' :: value.print (printMembers members ('}' :: rest)))

/-- Further items of an array, each after a comma. -/
def printItems : List Value → List Char → List Char
  | [], rest => rest
  | item :: items, rest => ',' :: item.print (printItems items rest)

/-- Further members of an object, each after a comma. -/
def printMembers : List (String × Value) → List Char → List Char
  | [], rest => rest
  | (key, value) :: members, rest =>
    ',' :: printText key (':' :: value.print (printMembers members rest))

end

/-- The text of a document. -/
def Value.write (v : Value) : String := String.ofList (v.print [])

/-- A line break and the indentation of `depth` levels, in front of `rest`. -/
def newLine (depth : Nat) (rest : List Char) : List Char :=
  '\n' :: (List.replicate (2 * depth) ' ' ++ rest)

mutual

/-- A document with each item and member on a line of its own, in front of `rest`. -/
def Value.printPretty : Nat → Value → List Char → List Char
  | depth, .array (item :: items), rest =>
    '[' :: newLine (depth + 1) (item.printPretty (depth + 1)
      (prettyItems (depth + 1) items (newLine depth (']' :: rest))))
  | depth, .object ((key, value) :: members), rest =>
    '{' :: newLine (depth + 1) (printText key (':' :: ' ' :: value.printPretty (depth + 1)
      (prettyMembers (depth + 1) members (newLine depth ('}' :: rest)))))
  | _, .array [], rest => '[' :: ']' :: rest
  | _, .object [], rest => '{' :: '}' :: rest
  | _, .null, rest => Value.null.print rest
  | _, .bool b, rest => (Value.bool b).print rest
  | _, .number n, rest => n.print rest
  | _, .text s, rest => printText s rest

/-- Further items, each after a comma and on a line of its own. -/
def prettyItems : Nat → List Value → List Char → List Char
  | _, [], rest => rest
  | depth, item :: items, rest =>
    ',' :: newLine depth (item.printPretty depth (prettyItems depth items rest))

/-- Further members, each after a comma and on a line of its own. -/
def prettyMembers : Nat → List (String × Value) → List Char → List Char
  | _, [], rest => rest
  | depth, (key, value) :: members, rest =>
    ',' :: newLine depth (printText key (':' :: ' ' :: value.printPretty depth
      (prettyMembers depth members rest)))

end

/-- The text of a document, one member a line. -/
def Value.pretty (v : Value) : String := String.ofList (v.printPretty 0 [])

end StagePlay.Json
