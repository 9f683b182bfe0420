import StagePlay.Text.Unshown

/-!
# Quoted text

The form in which a message shows a text: between double quotes, with the quote, the backslash and
whatever cannot be seen written as escapes. `quote` writes it, character by character with
`shownChar`.
-/

namespace StagePlay.Text

/-- The digits of a number in base sixteen, in lower case. -/
def hexDigits (n : Nat) : List Char := Nat.toDigits 16 n

/-- One character inside quotes. Characters below U+007F other than controls show themselves, as do
later ones that are not in the table. -/
def shownChar (c : Char) : List Char :=
  if c = '"' then ['\\', '"']
  else if c = '\\' then ['\\', '\\']
  else if c = '\x00' then ['\\', '0']
  else if c = '\t' then ['\\', 't']
  else if c = '\n' then ['\\', 'n']
  else if c = '\r' then ['\\', 'r']
  else if c.toNat < 0x20 || (0x7F ≤ c.toNat && isEscaped c.toNat) then
    ['\\', 'u', '\x7b'] ++ hexDigits c.toNat ++ ['\x7d']
  else [c]

/-- **A text between quotes.** -/
def quote (s : String) : String :=
  String.ofList (['"'] ++ s.toList.flatMap shownChar ++ ['"'])

end StagePlay.Text
