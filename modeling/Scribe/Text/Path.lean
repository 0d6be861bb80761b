import Scribe.Text.Blank

/-!
# Paths

**The written form of a path**: its parts with a slash between each two. An empty part and a part
`.` say nothing and are dropped, and a path without parts is written `.`. A path that begins with a
slash is written from the root; a root of exactly two slashes is kept, as it may mean something
else.

* `Scribe.Text.normalPath` – the written form;
* `Scribe.Text.Place.ofPath` – the place to which a path leads: there `..` takes back the part
  before it.
-/

namespace Scribe.Text

/-- The parts of a path that say something. -/
def pathParts (path : List Char) : List (List Char) :=
  (path.splitOn '/').filter fun part => part != [] && part != ['.']

/-- The root of a path, empty if it has none. -/
def pathRoot : List Char → List Char
  | '/' :: '/' :: '/' :: _ => ['/']
  | '/' :: '/' :: _ => ['/', '/']
  | '/' :: _ => ['/']
  | _ => []

/-- **The written form** of a path. -/
def normalPath (path : List Char) : List Char :=
  match pathRoot path, pathParts path with
  | [], [] => ['.']
  | root, parts => root ++ joinWith ['/'] parts

/-- The written form of a path as a string. -/
def normalizedPath (path : String) : String :=
  String.ofList (normalPath path.toList)

/-- **A place** in a file system: the parts that lead to it from the present folder or a root. -/
structure Place where
  /-- The root, empty for the present folder. -/
  root : List Char
  /-- The parts; those that lead out of the present folder come first. -/
  parts : List (List Char)
  deriving Repr, DecidableEq

/-- The part that leads one folder up. -/
def upPart : List Char := ['.', '.']

/-- The parts that are left when each `..` has taken back the part before it; `walked` holds those
before, last one first. Above a root there is nothing. -/
def walk (rooted : Bool) (walked : List (List Char)) : List (List Char) → List (List Char)
  | [] => walked.reverse
  | part :: rest =>
    if part == upPart then
      match walked with
      | [] => walk rooted (if rooted then [] else [upPart]) rest
      | before :: others =>
        walk rooted (if before == upPart then upPart :: walked else others) rest
    else walk rooted (part :: walked) rest

namespace Place

/-- **The place** to which a path leads. -/
def ofPath (path : String) : Place :=
  let root := pathRoot path.toList
  ⟨root, walk (!root.isEmpty) [] (pathParts path.toList)⟩

/-- The path of a place. -/
def toPath (p : Place) : String :=
  String.ofList (p.root ++ joinWith ['/'] p.parts)

/-- The folder in which a place lies. -/
def folder (p : Place) : Place :=
  { p with parts := p.parts.dropLast }

/-- The folders in which a place lies, the outermost first. -/
def folders (p : Place) : List Place :=
  (List.range p.parts.length).map fun n => { p with parts := p.parts.take n }

/-- Whether a place lies in a folder, at any depth. -/
def isIn (p folder : Place) : Bool :=
  p.root == folder.root && folder.parts.isPrefixOf p.parts && p.parts.length != folder.parts.length

/-- Whether the present folder or a root must be there or above. -/
def isAbove (p : Place) : Bool :=
  p.parts.all (· == upPart)

/-- Whether a place lies below the present folder. -/
def isBelow (p : Place) : Bool :=
  p.root.isEmpty && !p.parts.isEmpty && p.parts.head? != some upPart

end Place

end Scribe.Text
