import StagePlay.Number.Layout

/-!
# Texts in a settings file

A text can be written in four ways: between double quotes with escapes, or between single quotes as
it is, and each of these on one line or, with the quotes tripled, on several.

* `readText?` — a text in any of the four ways, with what follows it;
* `styleOf`, `writeText` — the way that is chosen for a text, and the text in it.

A text is written as it is where that spares escapes for quotes and backslashes, if it can be.
-/

namespace StagePlay.Toml

/-! ### Reading -/

/-- A character in front of a text that was read. -/
def push (c : Char) (read : Option (List Char × List Char)) : Option (List Char × List Char) :=
  read.map fun (cs, rest) => (c :: cs, rest)

/-- Characters that may stand for themselves in a line: all but the controls, of which only the tab.
-/
def isPlain (c : Char) : Bool := c = '\t' || (' ' ≤ c && c ≠ '\x7f')

/-- The character of an escape with one letter. -/
def shortEscape? (c : Char) : Option Char :=
  if c = 'b' then some '\x08'
  else if c = 't' then some '\t'
  else if c = 'n' then some '\n'
  else if c = 'f' then some '\x0c'
  else if c = 'r' then some '\r'
  else if c = '"' then some '"'
  else if c = '\\' then some '\\'
  else none

/-- The value of a hexadecimal digit. -/
def hexValue? (c : Char) : Option Nat :=
  if '0' ≤ c && c ≤ '9' then some (c.toNat - '0'.toNat)
  else if 'a' ≤ c && c ≤ 'f' then some (c.toNat - 'a'.toNat + 10)
  else if 'A' ≤ c && c ≤ 'F' then some (c.toNat - 'A'.toNat + 10)
  else none

/-- The character whose number is written with hexadecimal digits, if there is one. -/
def hexChar? (ds : List Char) : Option Char := do
  let n ← ds.foldlM (fun n c => (hexValue? c).map fun d => 16 * n + d) 0
  if n.isValidChar then some (Char.ofNat n) else none

/-- The rest of a text between double quotes on one line. -/
def readBasic : List Char → Option (List Char × List Char)
  | [] => none
  | c :: rest =>
    if c = '"' then some ([], rest)
    else if c = '\\' then
      match rest with
      | 'u' :: c₁ :: c₂ :: c₃ :: c₄ :: rest =>
        (hexChar? [c₁, c₂, c₃, c₄]).bind fun e => push e (readBasic rest)
      | 'U' :: c₁ :: c₂ :: c₃ :: c₄ :: c₅ :: c₆ :: c₇ :: c₈ :: rest =>
        (hexChar? [c₁, c₂, c₃, c₄, c₅, c₆, c₇, c₈]).bind fun e => push e (readBasic rest)
      | e :: rest => (shortEscape? e).bind fun e => push e (readBasic rest)
      | [] => none
    else if isPlain c then push c (readBasic rest)
    else none

/-- The rest of a text between single quotes on one line. -/
def readLiteral : List Char → Option (List Char × List Char)
  | [] => none
  | c :: rest =>
    if c = '\'' then some ([], rest)
    else if isPlain c then push c (readLiteral rest)
    else none

/-- The end of a text on several lines, after three quotes: up to two more belong to the text. -/
def afterQuotes (q : Char) : List Char → List Char × List Char
  | c :: d :: rest =>
    if c = q then if d = q then ([q, q], rest) else ([q], d :: rest) else ([], c :: d :: rest)
  | [c] => if c = q then ([q], []) else ([], [c])
  | [] => ([], [])

/-- Whether a line ends here, but for blanks. -/
def endsLine (cs : List Char) : Bool :=
  match cs.dropWhile fun c => c = ' ' || c = '\t' with
  | '\n' :: _ => true
  | '\r' :: '\n' :: _ => true
  | _ => false

/-- The rest of a text between double quotes on several lines. After a backslash at the end of a
line, all blanks and line ends are `skipping`. -/
def readBasicLines (skipping : Bool) : List Char → Option (List Char × List Char)
  | [] => none
  | c :: rest =>
    -- the blanks and line ends after a backslash at the end of a line
    if skipping && (c = ' ' || c = '\t' || c = '\n') then readBasicLines true rest
    else if c = '\r' then
      match rest with
      | '\n' :: rest =>
        if skipping then readBasicLines true rest else push '\n' (readBasicLines false rest)
      | _ => none
    else if c = '"' then
      match rest with
      | '"' :: '"' :: rest => some (afterQuotes '"' rest)
      | _ => push c (readBasicLines false rest)
    else if c = '\\' then
      if endsLine rest then readBasicLines true rest
      else match rest with
        | 'u' :: c₁ :: c₂ :: c₃ :: c₄ :: rest =>
          (hexChar? [c₁, c₂, c₃, c₄]).bind fun e => push e (readBasicLines false rest)
        | 'U' :: c₁ :: c₂ :: c₃ :: c₄ :: c₅ :: c₆ :: c₇ :: c₈ :: rest =>
          (hexChar? [c₁, c₂, c₃, c₄, c₅, c₆, c₇, c₈]).bind fun e =>
            push e (readBasicLines false rest)
        | e :: rest => (shortEscape? e).bind fun e => push e (readBasicLines false rest)
        | [] => none
    else if isPlain c || c = '\n' then push c (readBasicLines false rest)
    else none

/-- The rest of a text between single quotes on several lines. -/
def readLiteralLines : List Char → Option (List Char × List Char)
  | [] => none
  | c :: rest =>
    if c = '\'' then
      match rest with
      | '\'' :: '\'' :: rest => some (afterQuotes '\'' rest)
      | _ => push c (readLiteralLines rest)
    else if c = '\r' then
      match rest with
      | '\n' :: rest => push '\n' (readLiteralLines rest)
      | _ => none
    else if isPlain c || c = '\n' then push c (readLiteralLines rest)
    else none

/-- What follows the quotes at the beginning of several lines: a line end there does not count. -/
def afterOpening : List Char → List Char
  | '\n' :: rest => rest
  | '\r' :: '\n' :: rest => rest
  | cs => cs

/-- **A text in any way of writing**, with what follows it. -/
def readText? : List Char → Option (List Char × List Char)
  | '"' :: '"' :: '"' :: rest => readBasicLines false (afterOpening rest)
  | '"' :: rest => readBasic rest
  | '\'' :: '\'' :: '\'' :: rest => readLiteralLines (afterOpening rest)
  | '\'' :: rest => readLiteral rest
  | _ => none

/-! ### Writing -/

/-- The ways of writing a text. The last is three single quotes for a text on one line. -/
inductive Style where
  | basic
  | literal
  | basicLines
  | literalLines
  | literalTriple
  deriving DecidableEq, Repr

/-- Whether three single quotes stand together somewhere in a text. -/
def hasTripleQuote : List Char → Bool
  | '\'' :: '\'' :: '\'' :: _ => true
  | _ :: cs => hasTripleQuote cs
  | [] => false

/-- Whether a text can stand between single quotes, tripled if need be. -/
def fitsLiteral (cs : List Char) : Bool :=
  cs.all (fun c => isPlain c || c = '\n') && !hasTripleQuote cs && cs.getLast? ≠ some '\''

/-- Whether a text would need escapes for quotes or backslashes. -/
def wantsLiteral (cs : List Char) : Bool := cs.any fun c => c = '"' || c = '\\'

/-- **The way that is chosen for a text.** -/
def styleOf (cs : List Char) : Style :=
  if wantsLiteral cs && fitsLiteral cs then
    -- a quote inside calls for three around it
    if cs.contains '\n' then .literalLines
    else if cs.contains '\'' then .literalTriple
    else .literal
  else if cs.contains '\n' then .basicLines
  else .basic

/-- A hexadecimal digit in upper case. -/
def hexDigit (n : Nat) : Char := (Nat.digitChar n).toUpper

/-- One character between double quotes. Line ends stand for themselves where there are several
`lines`. -/
def escaped (lines : Bool) (c : Char) : List Char :=
  if c = '\x08' then ['\\', 'b']
  else if c = '\t' then ['\\', 't']
  else if c = '\n' then if lines then ['\n'] else ['\\', 'n']
  else if c = '\x0c' then ['\\', 'f']
  else if c = '\r' then ['\\', 'r']
  else if c = '"' then ['\\', '"']
  else if c = '\\' then ['\\', '\\']
  else if c < ' ' || c = '\x7f' then
    ['\\', 'u', '0', '0', hexDigit (c.toNat / 16), hexDigit (c.toNat % 16)]
  else [c]

/-- A text in a way of writing. -/
def writeAs (style : Style) (cs : List Char) : List Char :=
  match style with
  | .basic => ['"'] ++ cs.flatMap (escaped false) ++ ['"']
  | .literal => ['\''] ++ cs ++ ['\'']
  | .basicLines => ['"', '"', '"', '\n'] ++ cs.flatMap (escaped true) ++ ['"', '"', '"']
  | .literalLines => ['\'', '\'', '\'', '\n'] ++ cs ++ ['\'', '\'', '\'']
  | .literalTriple => ['\'', '\'', '\''] ++ cs ++ ['\'', '\'', '\'']

/-- **A text as it is written.** -/
def writeText (s : String) : List Char := writeAs (styleOf s.toList) s.toList

end StagePlay.Toml
