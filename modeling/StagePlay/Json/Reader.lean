import StagePlay.Json.Node
import StagePlay.Number.Numeral

/-!
# Reading a document

A reader that takes one character at a time. Its state is what it is in the middle of (`Mode`) and
the arrays and objects that are open (`Frame`), so reading a text is a fold over its characters and
needs no bound on how deep the text is nested.

* `NumberScan`, `TextScan` — a number or a text in the middle;
* `State.step` — one character;
* `read` — a whole text, as a `Document`: the node it holds, and whether anything follows it.
-/

namespace StagePlay.Json

open StagePlay.Number

/-- The blanks between the parts of a document. Other characters that a printer would leave blank
are wrong there. -/
def isSpace (c : Char) : Bool := c = ' ' || c = '\n' || c = '\t' || c = '\r'

/-! ### Numbers -/

/-- How far a number has come: which of its parts the last character belonged to. -/
inductive NumberPhase where
  | sign
  | zero
  | whole
  | point
  | places
  | exponentMark
  | exponentSign
  | exponent
  deriving DecidableEq, Repr

/-- The float nearest to a power of ten. -/
def powerOfTen (k : Nat) : Float := ofDecimal false 1 k

/-- Divides by the greatest power of ten that is a float, several times or until nothing is left.
Each division is rounded. -/
def divideAway : Nat → Float → Float
  | 0, x => x
  | times + 1, x => if x == 0 then x else divideAway times (x / powerOfTen 308)

/-- **A row of digits times a power of ten**, as floats are multiplied and divided: the digits, the
power and the result are rounded one after the other. What is too large is infinite. -/
def scaled (digits : UInt64) (power : Int) : Float :=
  if power < 0 then
    divideAway (power.natAbs / 308) digits.toFloat / powerOfTen (power.natAbs % 308)
  else if power ≤ 308 then digits.toFloat * powerOfTen power.natAbs
  -- nothing but a zero is small enough for so large a power
  else if digits = 0 then 0.0
  else 1.0 / 0.0

/-- **A number in the middle**: about `± digits * 10 ^ (power ± exponent)` so far. The digits are held
in 64 bits, and those for which there is no room any more are passed over (`full`); before the point
each of these still counts as a power of ten. So the reader is fast and not exact, and not every float
is found again where its digits are written out. -/
structure NumberScan where
  negative : Bool
  digits : UInt64
  power : Int
  full : Bool
  exponentNegative : Bool
  exponent : Nat
  phase : NumberPhase
  deriving DecidableEq, Repr

namespace NumberScan

/-- Before the first digit. -/
def opened (negative : Bool) : NumberScan := ⟨negative, 0, 0, false, false, 0, .sign⟩

/-- After the minus sign. -/
def afterMinus : NumberScan := opened true

/-- One more digit, if there is room for it. It moves the point by `taken`, and by `passed` if it is
passed over. -/
def push (n : NumberScan) (c : Char) (taken passed : Int) : NumberScan :=
  let digits := 10 * n.digits.toNat + digitValue c
  if n.full || wordBound ≤ digits then { n with power := n.power + passed, full := true }
  else { n with digits := .ofNat digits, power := n.power + taken }

/-- A first digit. A leading zero stands alone, so that no digit may follow it. -/
def lead (n : NumberScan) (c : Char) : NumberScan :=
  { n.push c 0 1 with phase := if c = '0' then .zero else .whole }

/-- A number that starts with a digit. -/
def ofDigit (c : Char) : NumberScan := lead (opened false) c

/-- The marks that may follow the digits before the point. After the point the reader tries anew
whether there is room for a digit. -/
def afterWhole (n : NumberScan) (c : Char) : Option NumberScan :=
  if c = '.' then some { n with full := false, phase := .point }
  else if c = 'e' || c = 'E' then some { n with phase := .exponentMark }
  else none

/-- One more digit of the exponent. -/
def pushExponent (n : NumberScan) (c : Char) : NumberScan :=
  { n with exponent := 10 * n.exponent + digitValue c, phase := .exponent }

/-- The number with one more character, if it belongs to it. -/
def step (n : NumberScan) (c : Char) : Option NumberScan :=
  match n.phase with
  | .sign => if isDigit c then some (n.lead c) else none
  -- a leading zero takes no further digit
  | .zero => n.afterWhole c
  | .whole => if isDigit c then some (n.push c 0 1) else n.afterWhole c
  | .point | .places =>
    if isDigit c then some { n.push c (-1) 0 with phase := .places }
    else if n.phase = .places && (c = 'e' || c = 'E') then some { n with phase := .exponentMark }
    else none
  | .exponentMark =>
    if isDigit c then some (n.pushExponent c)
    else if c = '+' then some { n with phase := .exponentSign }
    else if c = '-' then some { n with exponentNegative := true, phase := .exponentSign }
    else none
  | .exponentSign | .exponent => if isDigit c then some (n.pushExponent c) else none

/-- Whether the number may end here: behind a digit, but not behind a sign or a mark. -/
def complete (n : NumberScan) : Bool :=
  n.phase = .zero || n.phase = .whole || n.phase = .places || n.phase = .exponent

/-- The float of a number, infinite if the number is beyond every float. -/
def toFloat (n : NumberScan) : Float :=
  let e : Int := if n.exponentNegative then -(n.exponent : Int) else n.exponent
  let x := scaled n.digits (n.power + e)
  if n.negative then -x else x

/-- The node of a float. One beyond every float cannot be read. -/
def real (n : NumberScan) : Node :=
  if isFinite n.toFloat then .number (.real n.toFloat) else .badScalar .malformed none

/-- **The node of a number that ends here.** Digits alone are an integer if it fits 64 bits, with a
sign only below zero; everything else is a float, as is `-0`. -/
def node (n : NumberScan) : Node :=
  if n.phase = .zero || n.phase = .whole then
    if n.full then n.real
    else if n.negative then
      if n.digits ≠ 0 && n.digits.toNat ≤ signedBound then .number (.int (-(n.digits.toNat : Int)))
      else n.real
    else .number (.int n.digits.toNat)
  else n.real

/-- A number that breaks off. Passing over it tells no missing digit from a wrong character. -/
def truncated : Node := .badScalar .truncated (some .malformed)

end NumberScan

/-- A word or number with a wrong character in it. Whoever passes over it meets the same fault. -/
def malformedScalar : Node := .badScalar .malformed (some .malformed)

/-! ### Texts -/

/-- How far an escape has come. In `hex`, `size` bytes of the four digits have been seen, `code` is
their value if they are digits, and `high` is the first half of a pair if this is its second. -/
inductive TextPhase where
  | plain
  | escape
  | hex (size : Nat) (code : Option Nat) (high : Option Nat)
  | highHalf (high : Nat)
  | highHalfEscape (high : Nat)
  deriving DecidableEq, Repr

/-- **A text in the middle**: its characters, last first, and whether half of a pair stood alone in
it, so that the text has an end and cannot be read. -/
structure TextScan where
  chars : List Char
  unreadable : Bool
  phase : TextPhase
  deriving DecidableEq, Repr

/-- What a character does to a text: it goes on, it ends, or it goes wrong. -/
inductive TextStep where
  | more (scan : TextScan)
  | closed (scan : TextScan)
  | broken (scan : TextScan)
  deriving DecidableEq, Repr

/-- The value of a digit in base sixteen. -/
def hexValue? (c : Char) : Option Nat :=
  if '0' ≤ c && c ≤ '9' then some (c.toNat - '0'.toNat)
  else if 'a' ≤ c && c ≤ 'f' then some (c.toNat - 'a'.toNat + 10)
  else if 'A' ≤ c && c ≤ 'F' then some (c.toNat - 'A'.toNat + 10)
  else none

/-- Whether a code is the first half of a pair. -/
def isHighHalf (n : Nat) : Bool := 0xD800 ≤ n && n ≤ 0xDBFF

/-- Whether a code is the second half of a pair. -/
def isLowHalf (n : Nat) : Bool := 0xDC00 ≤ n && n ≤ 0xDFFF

/-- The code point of a pair. -/
def joinHalves (high low : Nat) : Nat := 0x10000 + (high - 0xD800) * 0x400 + (low - 0xDC00)

/-- The character of a simple escape. -/
def simpleEscape? (c : Char) : Option Char :=
  match c with
  | '"' => some '"'
  | '\\' => some '\\'
  | '/' => some '/'
  | 'b' => some '\x08'
  | 'f' => some '\x0c'
  | 'n' => some '\n'
  | 'r' => some '\r'
  | 't' => some '\t'
  | _ => none

namespace TextScan

/-- After the opening quote. -/
def opened : TextScan := ⟨[], false, .plain⟩

/-- One more character. -/
def push (t : TextScan) (c : Char) : TextScan := { t with chars := c :: t.chars, phase := .plain }

/-- Half of a pair stands alone; `phase` is where the text goes on. -/
def spoil (t : TextScan) (phase : TextPhase) : TextScan :=
  { t with unreadable := true, phase := phase }

/-- A character outside escapes. Controls must be escaped. -/
def plainStep (t : TextScan) (c : Char) : TextStep :=
  if c = '"' then .closed t
  else if c = '\\' then .more { t with phase := .escape }
  else if c.toNat < 0x20 then .broken t
  else .more (t.push c)

/-- The character after a backslash. -/
def escapeStep (t : TextScan) (c : Char) : TextStep :=
  if c = 'u' then .more { t with phase := .hex 0 (some 0) none }
  else match simpleEscape? c with
    | some d => .more (t.push d)
    | none => .broken t

/-- The end of four digits in base sixteen. They are the code of a character, or one half of a pair
of codes that stand for one together; a half that stands alone spoils the text. -/
def codeStep (t : TextScan) (code : Nat) : Option Nat → TextScan
  | none =>
    if isLowHalf code then t.spoil .plain
    else if isHighHalf code then { t with phase := .highHalf code }
    else t.push (Char.ofNat code)
  | some high =>
    if isLowHalf code then t.push (Char.ofNat (joinHalves high code)) else t.spoil .plain

/-- One more of the four digits. They are four bytes, whatever these are. -/
def hexStep (t : TextScan) (c : Char) (size : Nat) (code high : Option Nat) : TextStep :=
  let size' := size + c.utf8Size
  -- a character that is no digit is noticed only when the four bytes have been seen
  let code' := match code, hexValue? c with
    | some n, some d => some (16 * n + d)
    | _, _ => none
  if size' < 4 then .more { t with phase := .hex size' code' high }
  else match code' with
    | some n => .more (t.codeStep n high)
    | none => .broken t

/-- **One character of a text.** -/
def step (t : TextScan) (c : Char) : TextStep :=
  match t.phase with
  | .plain => t.plainStep c
  | .escape => t.escapeStep c
  | .hex size code high => t.hexStep c size code high
  | .highHalf high =>
    if c = '\\' then .more { t with phase := .highHalfEscape high }
    else (t.spoil .plain).plainStep c
  | .highHalfEscape high =>
    if c = 'u' then .more { t with phase := .hex 0 (some 0) (some high) }
    else (t.spoil .escape).escapeStep c

/-- The node of a text that ends here. -/
def node (t : TextScan) : Node :=
  if t.unreadable then .badText .malformed none else .text (String.ofList t.chars.reverse)

/-- A text that goes wrong or breaks off. -/
def brokenNode (t : TextScan) (f : Fault) : Node :=
  .badText (if t.unreadable then .malformed else f) (some f)

end TextScan

/-! ### The reader -/

/-- **What is open**: an array with its items so far, an object with its members so far where a key
comes next, or an object with a key whose value comes next. Newest first. -/
inductive Frame where
  | array (items : List Node)
  | object (members : List (Node × Node))
  | member (members : List (Node × Node)) (key : Node)
  deriving Repr

/-- What the reader is in the middle of. -/
inductive Mode where
  | value
  | firstItem
  | firstKey
  | nextKey
  | colon
  | more
  | word (rest : List Char) (node : Node)
  | number (scan : NumberScan)
  | text (scan : TextScan)
  deriving Repr

/-- **The state of the reader.** `broken` holds what was found before a fault. -/
inductive State where
  | reading (mode : Mode) (stack : List Frame)
  | finished (root : Node) (trailing : Bool)
  | broken (root : Node)
  deriving Repr

/-- What was found when a fault ends the reading: `leaf` is the part that the reader was in the
middle of, if any, and the open arrays and objects end in the fault. -/
def collapse (leaf : Option Node) (f : Fault) : List Frame → Node
  | [] => leaf.getD (.missing f)
  | .array items :: stack =>
    collapse (some (.array (leaf.toList ++ items).reverse (some f))) f stack
  | .object members :: stack =>
    -- a key was being read, so there is no value for it
    let last := leaf.toList.map fun key => (key, Node.missing f)
    collapse (some (.object (last ++ members).reverse (some f))) f stack
  | .member members key :: stack =>
    collapse (some (.object ((key, leaf.getD (.missing f)) :: members).reverse (some f))) f stack

/-- A wrong character. -/
def State.malformed (leaf : Option Node) (stack : List Frame) : State :=
  .broken (collapse leaf .malformed stack)

/-- **A value has ended**, and goes into what is open around it. Only a text is a key. -/
def State.deliver (node : Node) : List Frame → State
  | [] => .finished node false
  | .array items :: stack => .reading .more (.array (node :: items) :: stack)
  | .object members :: stack =>
    match node with
    | .text _ | .badText _ _ => .reading .colon (.member members node :: stack)
    | _ => .malformed (some node) (.object members :: stack)
  | .member members key :: stack => .reading .more (.object ((key, node) :: members) :: stack)

/-- The first character of a value. -/
def State.start (c : Char) (stack : List Frame) : State :=
  if c = 'n' then .reading (.word "ull".toList .null) stack
  else if c = 't' then .reading (.word "rue".toList (.bool true)) stack
  else if c = 'f' then .reading (.word "alse".toList (.bool false)) stack
  else if c = '-' then .reading (.number .afterMinus) stack
  else if isDigit c then .reading (.number (.ofDigit c)) stack
  else if c = '"' then .reading (.text .opened) stack
  else if c = '[' then .reading .firstItem (.array [] :: stack)
  else if c = '{' then .reading .firstKey (.object [] :: stack)
  else .malformed (some (.missing .malformed)) stack

/-- The character after a value inside an array or object. -/
def State.afterValue (c : Char) : List Frame → State
  | .array items :: stack =>
    if c = ',' then .reading .value (.array items :: stack)
    else if c = ']' then .deliver (.array items.reverse none) stack
    else .malformed none (.array items :: stack)
  | .object members :: stack =>
    if c = ',' then .reading .nextKey (.object members :: stack)
    else if c = '}' then .deliver (.object members.reverse none) stack
    else .malformed none (.object members :: stack)
  | stack => .malformed none stack

/-- A character that ends the value before it. -/
def State.follow (c : Char) : State → State
  | .reading mode stack => if isSpace c then .reading mode stack else .afterValue c stack
  | .finished root trailing => .finished root (trailing || !isSpace c)
  | .broken root => .broken root

/-- **One character.** In the middle of a word, a number or a text it belongs to that, or ends it;
otherwise it is a blank, or a part of the structure. -/
def State.step (state : State) (c : Char) : State :=
  match state with
  | .finished root trailing => .finished root (trailing || !isSpace c)
  | .broken root => .broken root
  | .reading (.word rest node) stack =>
    match rest with
    | [] => .malformed (some malformedScalar) stack
    | [last] => if c = last then .deliver node stack else .malformed (some malformedScalar) stack
    | next :: rest =>
      if c = next then .reading (.word rest node) stack
      else .malformed (some malformedScalar) stack
  | .reading (.number scan) stack =>
    match scan.step c with
    | some scan' => .reading (.number scan') stack
    | none =>
      if scan.complete && !(scan.phase = .zero && isDigit c) then
        State.follow c (.deliver scan.node stack)
      else .malformed (some malformedScalar) stack
  | .reading (.text scan) stack =>
    match scan.step c with
    | .more scan' => .reading (.text scan') stack
    | .closed scan' => .deliver scan'.node stack
    | .broken scan' => .malformed (some (scan'.brokenNode .malformed)) stack
  | .reading mode stack =>
    if isSpace c then .reading mode stack
    else match mode with
      | .value => .start c stack
      | .firstItem => if c = ']' then .afterValue c stack else .start c stack
      | .firstKey => if c = '}' then .afterValue c stack else .start c stack
      | .nextKey =>
        if c = '"' then .start c stack else .malformed (some (.missing .malformed)) stack
      | .colon => if c = ':' then .reading .value stack else .malformed none stack
      | _ => .afterValue c stack

/-- **What a text holds**: a node, and whether anything but blanks follows it. -/
structure Document where
  root : Node
  trailing : Bool
  deriving Repr

/-- The text ends. -/
def State.finish : State → Document
  | .finished root trailing => ⟨root, trailing⟩
  | .broken root => ⟨root, false⟩
  | .reading mode stack =>
    let ends (leaf : Option Node) : Document := ⟨collapse leaf .truncated stack, false⟩
    match mode with
    | .value | .nextKey => ends (some (.missing .truncated))
    | .word _ _ => ends (some (.badScalar .truncated (some .truncated)))
    | .text scan => ends (some (scan.brokenNode .truncated))
    | .number scan =>
      if scan.complete then
        match stack with
        | [] => ⟨scan.node, false⟩
        | _ => ends (some scan.node)
      else ends (some NumberScan.truncated)
    | _ => ends none

/-- **Reading a text.** -/
def read (source : String) : Document :=
  (source.toList.foldl State.step (.reading .value [])).finish

end StagePlay.Json
