/-!
# Files and where they are

A `Disk` is what is known of a file system: the working directory, and files with their texts. A
path is followed from the root or from the working directory, step by step; `Disk.find` tells what
it leads to.

* `Disk.fullPath` — a path that does not depend on the working directory;
* `Disk.relative` — the way from the working directory to a place;
* `extension` — the last part of a file name, which tells the format.
-/

namespace StagePlay

/-- **A file system**, as far as it is known. Places are lists of names from the root. -/
structure Disk where
  here : List String
  files : List (List String × String)
  deriving DecidableEq, Repr

/-- **What a path leads to.** -/
inductive Place where
  | file (text : String)
  | directory
  /-- There is nothing of that name. -/
  | nothing
  /-- The path goes on where there is a file. -/
  | beyondFile
  deriving DecidableEq, Repr

/-- The characters between slashes. -/
def pathParts : List Char → List (List Char)
  | [] => [[]]
  | c :: cs =>
    if c = '/' then [] :: pathParts cs
    else match pathParts cs with
      | part :: parts => (c :: part) :: parts
      | [] => [[c]]

/-- Whether a path begins at the root. -/
def isAbsolute (path : String) : Bool := path.toList.head? = some '/'

/-- The steps of a path. A slash at the end is a step on the spot. -/
def pathSteps (path : String) : List String :=
  let parts := (pathParts path.toList).map String.ofList
  let steps := parts.filter fun part => part ≠ ""
  if parts.getLast? = some "" then steps ++ ["."] else steps

/-- The last part of a file name, after a point that is not its first character. -/
def extension (name : String) : String :=
  let cs := name.toList.reverse
  let ending := cs.takeWhile fun c => c ≠ '.'
  match cs.drop ending.length with
  | '.' :: _ :: _ => String.ofList ending.reverse
  | _ => ""

namespace Disk

/-- The text of the file at a place. -/
def text? (d : Disk) (place : List String) : Option String := d.files.lookup place

/-- Whether a place is a directory: on the way to the working directory or to a file. -/
def isDirectory (d : Disk) (place : List String) : Bool :=
  place.isPrefixOf d.here || d.files.any fun f => place.isPrefixOf f.1 && place ≠ f.1

/-- Following steps from a place. -/
def follow (d : Disk) (place : List String) : List String → Place
  | [] =>
    match d.text? place with
    | some text => .file text
    | none => if d.isDirectory place then .directory else .nothing
  | step :: steps =>
    if (d.text? place).isSome then .beyondFile
    else if !d.isDirectory place then .nothing
    else if step = "." then d.follow place steps
    else if step = ".." then d.follow place.dropLast steps
    else d.follow (place ++ [step]) steps

/-- Where a path begins. -/
def origin (d : Disk) (path : String) : List String := if isAbsolute path then [] else d.here

/-- **What a path leads to.** The empty path leads nowhere. -/
def find (d : Disk) (path : String) : Place :=
  if path = "" then .nothing else d.follow (d.origin path) (pathSteps path)

/-- A path from the root as text. -/
def shown (place : List String) : String := "/" ++ String.intercalate "/" place

/-- A path that does not depend on the working directory. -/
def fullPath (d : Disk) (path : String) : String :=
  if isAbsolute path then path else shown d.here ++ "/" ++ path

/-- What is left of two places after what they have in common. -/
def withoutCommon : List String → List String → List String × List String
  | a :: as, b :: bs => if a = b then withoutCommon as bs else (a :: as, b :: bs)
  | as, bs => (as, bs)

/-- **The way from the working directory** to a place. -/
def relative (d : Disk) (place : List String) : String :=
  let (forth, back) := withoutCommon place d.here
  String.intercalate "/" (back.map (fun _ => "..") ++ forth)

/-- The names that a path goes through from the root, without the steps on the spot. -/
def names (d : Disk) (path : String) : List String :=
  d.origin path ++ (pathSteps path).filter fun step => step ≠ "."

end Disk

end StagePlay
