import StagePlay.Environment.Basic
import StagePlay.Text.Alphanumeric

/-!
# Environment files

A file that extends an environment, with one assignment `NAME=value` a line. Values may be quoted,
in part or whole; a quoted value may go on over several lines. Outside single quotes `$NAME` stands
for a value given before, and a backslash takes the meaning from the character after it. What
follows a `#` at the beginning of a line or after a blank is a comment.

* `quotedLines` — the lines of a file, joined where a quote is open;
* `readAssignment` — a line as an assignment;
* `Environment.extendFrom` — an environment with the assignments of a file. Everything from the
  first line on that is no assignment is left out.
-/

namespace StagePlay

open Text

namespace EnvironmentFile

/-! ### Lines -/

/-- Where a line stands: outside quotes, after a blank, in a quote, after a backslash, or in a
comment. -/
inductive LineState where
  | plain
  | blank
  | escape
  | weak
  | weakEscape
  | strong
  | strongEscape
  | comment
  deriving DecidableEq, Repr

/-- The state after one more character. -/
def LineState.next (s : LineState) (c : Char) : LineState :=
  match s with
  | .plain =>
    if isBlank c && c ≠ '\n' && c ≠ '\r' then .blank
    else if c = '\\' then .escape
    else if c = '"' then .weak
    else if c = '\'' then .strong
    else .plain
  | .blank =>
    if c = '#' then .comment
    else if c = '\\' then .escape
    else if c = '"' then .weak
    else if c = '\'' then .strong
    else .plain
  | .escape => .plain
  | .weak => if c = '\\' then .weakEscape else if c = '"' then .plain else .weak
  | .weakEscape => .weak
  | .strong => if c = '\\' then .strongEscape else if c = '\'' then .plain else .strong
  | .strongEscape => .strong
  | .comment => .comment

/-- The lines of a text, each with its line end. -/
def physicalLines : List Char → List (List Char)
  | [] => []
  | c :: cs =>
    if c = '\n' then [c] :: physicalLines cs
    else match physicalLines cs with
      | line :: lines => (c :: line) :: lines
      | [] => [[c]]

/-- A line up to its comment. -/
def beforeComment (s : LineState) : List Char → List Char
  | [] => []
  | c :: cs => if s.next c = .comment then [] else c :: beforeComment (s.next c) cs

/-- A line without its line end. -/
def withoutEnd (line : List Char) : List Char :=
  match line.reverse with
  | '\n' :: '\r' :: cs => cs.reverse
  | '\n' :: cs => cs.reverse
  | _ => line

/-- The lines of a text, joined while a quote is open, with `before` already read. A last line that
is left open is none, and so is everything after it. -/
def joinLines (s : LineState) (before : List Char) :
    List (List Char) → List (Option (List Char))
  | [] => if s = .plain then [] else [none]
  | line :: lines =>
    let all := before ++ line
    -- a line that is a comment as a whole is left out, quotes and all
    if (all.dropWhile isBlank).head? = some '#' then joinLines .plain [] lines
    else
      match line.foldl LineState.next s with
      | .plain => some (withoutEnd all) :: joinLines .plain [] lines
      | .comment => some (before ++ beforeComment s line) :: joinLines .plain [] lines
      | s' => joinLines s' all lines

/-- **The lines of a file.** -/
def quotedLines (text : String) : List (Option (List Char)) :=
  joinLines .plain [] (physicalLines text.toList)

/-! ### Values -/

/-- How a name that a value refers to is being read: not at all, bare, or between braces. -/
inductive Reference where
  | none
  | bare
  | braced
  deriving DecidableEq, Repr

/-- A value that is being read. -/
structure Scan where
  output : List Char
  strong : Bool
  weak : Bool
  escaped : Bool
  atEnd : Bool
  reference : Reference
  name : List Char

/-- The beginning of a value. -/
def Scan.start : Scan := ⟨[], false, false, false, false, .none, []⟩

/-- One more character of the value. -/
def Scan.push (s : Scan) (c : Char) : Scan := { s with output := s.output ++ [c] }

/-- The value that the name refers to, in its place. -/
def Scan.substitute (s : Scan) (value : String → String) : Scan :=
  { s with
    output := s.output ++ (value (String.ofList s.name)).toList
    name := []
    reference := .none }

/-- The scan after one more character; nothing if it cannot stand there. -/
def Scan.next? (s : Scan) (value : String → String) (c : Char) : Option Scan :=
  if s.atEnd then if c = ' ' || c = '\t' then some s else none
  else if s.escaped then
    if c = '\\' || c = '\'' || c = '"' || c = '$' || c = ' ' then
      some { s.push c with escaped := false }
    else if c = 'n' then some { s.push '\n' with escaped := false }
    else none
  else if s.strong then some (if c = '\'' then { s with strong := false } else s.push c)
  else match s.reference with
    | .bare =>
      if isAlphanumeric c then some { s with name := s.name ++ [c] }
      else if c = '\x7b' && s.name.isEmpty then some { s with reference := .braced }
      -- one name ends and the next one begins
      else if c = '$' then some { s.substitute value with reference := .bare }
      else some ((s.substitute value).push c)
    | .braced =>
      if c = '\x7d' then some (s.substitute value) else some { s with name := s.name ++ [c] }
    | .none =>
      if c = '$' then some { s with reference := .bare }
      else if c = '\\' then some { s with escaped := true }
      else if s.weak then some (if c = '"' then { s with weak := false } else s.push c)
      else if c = '\'' then some { s with strong := true }
      else if c = '"' then some { s with weak := true }
      else if c = ' ' || c = '\t' then some { s with atEnd := true }
      else some (s.push c)

/-- The value of a scan at the end of the line, unless something is open. -/
def Scan.finish? (s : Scan) (value : String → String) : Option String :=
  if s.reference = .braced || s.strong || s.weak then none
  else some (String.ofList (s.substitute value).output)

/-- A value with what stands before it scanned. -/
def readValue (value : String → String) (s : Scan) : List Char → Option String
  | [] => s.finish? value
  | c :: cs =>
    if s.atEnd && c = '#' then s.finish? value
    else (s.next? value c).bind fun s => readValue value s cs

/-! ### Assignments -/

/-- What a line says. -/
inductive Statement where
  | nothing
  | assign (name : String) (value : String)
  | malformed
  deriving DecidableEq, Repr

/-- A name, and what follows it and the blanks after it. -/
def readName? (cs : List Char) : Option (String × List Char) :=
  match cs with
  | [] => none
  | c :: _ =>
    if c.isAlpha || c = '_' then
      let isNameChar (c : Char) : Bool := c.isAlphanum || c = '_' || c = '.'
      some (String.ofList (cs.takeWhile isNameChar), (cs.dropWhile isNameChar).dropWhile isBlank)
    else none

/-- A value for a name. -/
def readAssigned (value : String → String) (name : String) (cs : List Char) : Statement :=
  let cs := cs.dropWhile isBlank
  if cs.isEmpty || cs.head? = some '#' then .assign name ""
  else match readValue value .start cs with
    | some v => .assign name v
    | none => .malformed

/-- **A line as an assignment.** The word `export` may stand before a name. -/
def readAssignment (value : String → String) (line : List Char) : Statement :=
  let cs := trim line
  if cs.isEmpty || cs.head? = some '#' then .nothing
  else match readName? cs with
    | none => .malformed
    | some (name, '=' :: rest) => readAssigned value name rest
    | some (name, rest) =>
      if name = "export" then
        match readName? rest with
        | some (name, '=' :: rest) => readAssigned value name rest
        | _ => .malformed
      else .malformed

end EnvironmentFile

open EnvironmentFile

/-- An environment with the assignments of some lines. `given` are those of the lines before. -/
def Environment.extendLines (e : Environment) (given : List (String × String)) :
    List (Option (List Char)) → Environment
  | [] => e
  | none :: _ => e
  | some line :: lines =>
    -- what the environment has goes before what the file has said
    let value (name : String) : String := (e.get? name).getD ((given.lookup name).getD "")
    match readAssignment value line with
    | .nothing => e.extendLines given lines
    | .assign name v => (e.extend name v).extendLines ((name, v) :: given) lines
    | .malformed => e

/-- **An environment with the assignments of a file.** -/
def Environment.extendFrom (e : Environment) (text : String) : Environment :=
  let text := match text.toList with
    | '\ufeff' :: cs => String.ofList cs
    | _ => text
  e.extendLines [] (quotedLines text)

end StagePlay
