import StagePlay.Toml.Scalar
import StagePlay.Toml.Text

/-!
# Settings files

A settings file is a sequence of lines. A line gives a value to a path of keys, or it is a heading,
which names the table that the following lines belong to.

* `readValue?` — a value with what follows it; lists and tables may be nested;
* `Line`, `readLines?` — the lines of a file;
* `Tree`, `Reading.apply?` — the tables that lines fill, with what may not be said twice;
* `read?` — a whole file as the members of its outermost table.
-/

namespace StagePlay.Toml

/-! ### Blanks and keys -/

/-- What follows blanks. -/
def skipBlanks (cs : List Char) : List Char := cs.dropWhile fun c => c = ' ' || c = '\t'

/-- What follows blanks, line ends and comments. No control but the tab may stand in a comment. -/
def skipGap? (inComment : Bool) : List Char → Option (List Char)
  | [] => some []
  | c :: cs =>
    if c = '\n' then skipGap? false cs
    else if c = '\r' then
      match cs with
      | '\n' :: cs => skipGap? false cs
      | _ => none
    else if inComment then if isPlain c then skipGap? true cs else none
    else if c = ' ' || c = '\t' then skipGap? false cs
    else if c = '#' then skipGap? true cs
    else some (c :: cs)

/-- Characters of a key without quotes. -/
def isKeyChar (c : Char) : Bool := c.isAlphanum || c = '_' || c = '-'

/-- A key, and what follows it. -/
def readKey? : List Char → Option (String × List Char)
  | '"' :: cs => (readBasic cs).map fun (k, rest) => (String.ofList k, rest)
  | '\'' :: cs => (readLiteral cs).map fun (k, rest) => (String.ofList k, rest)
  | cs =>
    let key := cs.takeWhile isKeyChar
    if key.isEmpty then none else some (String.ofList key, cs.dropWhile isKeyChar)

/-- How many keys a path may have, and how deep lists and tables may be nested. -/
def nestingLimit : Nat := 79

/-- A path of at most so many keys with points between them, and what follows it and the blanks
after it. -/
def readKeys? : Nat → List Char → Option (List String × List Char)
  | 0, _ => none
  | left + 1, cs => do
    let (key, cs) ← readKey? (skipBlanks cs)
    match skipBlanks cs with
    -- blanks may stand on both sides of the point
    | '.' :: cs => do
      let (path, cs) ← readKeys? left cs
      pure (key :: path, cs)
    | cs => pure ([key], cs)

/-- **A path of keys**, and what follows it and the blanks after it. -/
def readPath? (cs : List Char) : Option (List String × List Char) := readKeys? nestingLimit cs

/-! ### Tables that are being filled -/

/-- How a table came about: on the way to another one, by a heading of its own, or by a path of
keys. -/
inductive Origin where
  | passing
  | heading
  | path
  deriving DecidableEq, Repr

/-- **A member of a table that is being filled**: a value, a table, or a list of tables, the last of
which is being filled. -/
inductive Tree where
  | leaf (v : Value)
  | branch (origin : Origin) (members : List (String × Tree))
  | row (done : List (List (String × Tree))) (last : List (String × Tree))

/-- The members of a table. -/
abbrev Members := List (String × Tree)

/-- Changing the member of a key, or putting in a new one. -/
def alter (key : String) (f : Option Tree → Option Tree) : Members → Option Members
  | [] => (f none).map fun t => [(key, t)]
  | (k, t) :: ms =>
    if k = key then (f (some t)).map fun t => (k, t) :: ms
    else (alter key f ms).map ((k, t) :: ·)

/-- Giving a value to a path of keys, none of which may have one. The value goes into a table that
paths of keys brought about; tables on the way to it may have come about on the way to a heading,
too. -/
def assign (path : List String) (v : Value) (ms : Members) : Option Members :=
  match path with
  | [] => none
  | [key] => alter key (fun
      | none => some (.leaf v)
      | some _ => none) ms
  | key :: path => alter key (fun
      | none => (assign path v []).map (.branch .path)
      | some (.branch .path inner) => (assign path v inner).map (.branch .path)
      | some (.branch .passing inner) =>
        if path.length = 1 then none else (assign path v inner).map (.branch .passing)
      | some _ => none) ms

/-- Changing the table at a path of headings, which comes about if it is not there. -/
def within (path : List String) (f : Members → Option Members) (ms : Members) : Option Members :=
  match path with
  | [] => f ms
  | key :: path => alter key (fun
      | none => (within path f []).map (.branch .passing)
      | some (.branch origin inner) => (within path f inner).map (.branch origin)
      -- a heading below a list goes on with the last table of it
      | some (.row done last) => (within path f last).map (.row done)
      | some (.leaf _) => none) ms

/-- A heading for a table, which may not have had one. -/
def openTable (key : String) (ms : Members) : Option Members :=
  alter key (fun
    | none => some (.branch .heading [])
    -- a table that came about in passing may have its heading later
    | some (.branch .passing inner) => some (.branch .heading inner)
    | some _ => none) ms

/-- A heading for one more table of a list. -/
def openRow (key : String) (ms : Members) : Option Members :=
  alter key (fun
    | none => some (.row [] [])
    | some (.row done last) => some (.row (done ++ [last]) [])
    | some _ => none) ms

mutual

/-- A member that is filled, as a value. -/
def Tree.value : Tree → Value
  | .leaf v => v
  | .branch _ ms => .table (valuesOf ms)
  | .row done last => .array (tablesOf done ++ [.table (valuesOf last)])

/-- The members of a table that is filled. -/
def valuesOf : List (String × Tree) → List (String × Value)
  | [] => []
  | (k, t) :: ms => (k, t.value) :: valuesOf ms

/-- The tables of a list that is filled. -/
def tablesOf : List (List (String × Tree)) → List Value
  | [] => []
  | ms :: rest => .table (valuesOf ms) :: tablesOf rest

end

/-! ### Values -/

mutual

/-- **A value** with at most `left` levels of lists and tables inside each other, and what follows
it. -/
def readValue? (left : Nat) : Nat → List Char → Option (Value × List Char)
  | 0, _ => none
  | fuel + 1, cs =>
    match cs with
    | '[' :: cs => do
      if left = 0 then none
      let (items, cs) ← readItems? (left - 1) fuel cs
      pure (.array items, cs)
    | '\x7b' :: cs => do
      if left = 0 then none
      match skipBlanks cs with
      | '\x7d' :: cs => pure (.table [], cs)
      | cs =>
        let (ms, cs) ← readMembers? (left - 1) fuel [] cs
        pure (.table (valuesOf ms), cs)
    | '"' :: _ => (readText? cs).map fun (s, rest) => (.text (String.ofList s), rest)
    | '\'' :: _ => (readText? cs).map fun (s, rest) => (.text (String.ofList s), rest)
    | _ =>
      let (word, rest) := splitWord cs
      (readWord? word).map fun v => (v, rest)

/-- The items of a list up to its end. A comma may follow the last one. -/
def readItems? (left : Nat) : Nat → List Char → Option (List Value × List Char)
  | 0, _ => none
  | fuel + 1, cs => do
    match ← skipGap? false cs with
    | ']' :: cs => pure ([], cs)
    | cs =>
      let (v, cs) ← readValue? left fuel cs
      match ← skipGap? false cs with
      | ',' :: cs =>
        let (vs, cs) ← readItems? left fuel cs
        pure (v :: vs, cs)
      | ']' :: cs => pure ([v], cs)
      | _ => none

/-- The members of a table on one line, up to its end. No comma may follow the last one. -/
def readMembers? (left : Nat) : Nat → Members → List Char → Option (Members × List Char)
  | 0, _, _ => none
  | fuel + 1, ms, cs => do
    let (path, cs) ← readPath? cs
    match cs with
    | '=' :: cs =>
      let (v, cs) ← readValue? left fuel (skipBlanks cs)
      let ms ← assign path v ms
      match skipBlanks cs with
      | ',' :: cs => readMembers? left fuel ms cs
      | '\x7d' :: cs => pure (ms, cs)
      | _ => none
    | _ => none

end

/-! ### Lines -/

/-- **A line**: a value for a path, a heading, or a heading for one more table of a list. -/
inductive Line where
  | pair (path : List String) (v : Value)
  | heading (path : List String)
  | rowHeading (path : List String)

/-- A line, and what follows it. -/
def readLine? (fuel : Nat) (cs : List Char) : Option (Line × List Char) :=
  match cs with
  | '[' :: '[' :: cs => do
    let (path, cs) ← readPath? cs
    match cs with
    | ']' :: ']' :: cs => pure (.rowHeading path, cs)
    | _ => none
  | '[' :: cs => do
    let (path, cs) ← readPath? cs
    match cs with
    | ']' :: cs => pure (.heading path, cs)
    | _ => none
  | cs => do
    let (path, cs) ← readPath? cs
    match cs with
    | '=' :: cs => do
      let (v, cs) ← readValue? nestingLimit fuel (skipBlanks cs)
      pure (.pair path v, cs)
    | _ => none

/-- Whether nothing but a comment follows on a line. -/
def isLineEnd (cs : List Char) : Bool :=
  match skipBlanks cs with
  | [] => true
  | '\n' :: _ => true
  | '\r' :: '\n' :: _ => true
  | '#' :: _ => true
  | _ => false

/-- The lines of a file. -/
def readLines? : Nat → List Char → Option (List Line)
  | 0, _ => none
  | fuel + 1, cs => do
    match ← skipGap? false cs with
    | [] => pure []
    | cs =>
      let (line, cs) ← readLine? fuel cs
      if isLineEnd cs then
        let lines ← readLines? fuel cs
        pure (line :: lines)
      else none

/-! ### Files -/

/-- A file that is being read: its outermost table, and the heading that is in force. -/
structure Reading where
  members : Members
  path : List String

/-- What a line adds. -/
def Reading.apply? (r : Reading) : Line → Option Reading
  | .pair path v => (within r.path (assign path v) r.members).map fun members => { r with members }
  | .heading path => do
    let key ← path.getLast?
    let members ← within path.dropLast (openTable key) r.members
    pure ⟨members, path⟩
  | .rowHeading path => do
    let key ← path.getLast?
    let members ← within path.dropLast (openRow key) r.members
    pure ⟨members, path⟩

/-- **The members of a file.** -/
def read? (text : String) : Option (List (String × Value)) := do
  let cs := text.toList
  let lines ← readLines? (2 * cs.length + 2) cs
  let r ← lines.foldlM Reading.apply? ⟨[], []⟩
  pure (valuesOf r.members)

end StagePlay.Toml
