import Scribe.Text.Path

/-!
# Files

**The files** that a command finds and leaves, by their places. There is a folder wherever a file
lies below. Writing a file makes the folders that it needs, but neither takes the place of a folder
nor makes a folder where a file is.
-/

namespace Scribe

open Text

/-- **Files**, each with its place. -/
structure Folder where
  files : List (Place × ByteArray) := []

/-- **Why a file cannot be written.** -/
inductive WriteFault where
  /-- There is a folder in its place. -/
  | folder
  /-- There is a file in the place of its folder. -/
  | folderIsFile
  /-- There is a file in the place of a folder further up. -/
  | behindFile
  deriving Repr, DecidableEq

namespace Folder

/-- The file in a place. -/
def get? (f : Folder) (p : Place) : Option ByteArray :=
  f.files.lookup p

/-- **The content of the file** at a path, if there is one. -/
def read? (f : Folder) (path : String) : Option ByteArray :=
  f.get? (.ofPath path)

/-- Whether there is a file in a place. -/
def hasFile (f : Folder) (p : Place) : Bool :=
  (f.get? p).isSome

/-- Whether there is a folder in a place. -/
def hasFolder (f : Folder) (p : Place) : Bool :=
  p.isAbove || f.files.any fun e => e.1.isIn p

/-- The files with one more, which takes the place of another if there is one. -/
def put (f : Folder) (p : Place) (content : ByteArray) : Folder :=
  if f.hasFile p then ⟨f.files.map fun e => if e.1 == p then (p, content) else e⟩
  else ⟨f.files ++ [(p, content)]⟩

/-- What prevents a file from being written in a place, if something does. -/
def obstacle? (f : Folder) (p : Place) : Option WriteFault :=
  if f.hasFolder p then some .folder
  else if f.hasFile p.folder then some .folderIsFile
  else if p.folders.any f.hasFile then some .behindFile
  else none

/-- **Writes a file** at a path. -/
def write (f : Folder) (path text : String) : Except WriteFault Folder :=
  match f.obstacle? (.ofPath path) with
  | some fault => .error fault
  | none => .ok (f.put (.ofPath path) text.toUTF8)

/-- The files that others have not, or not so. -/
def since (after before : Folder) : List (Place × ByteArray) :=
  after.files.filter fun e => before.get? e.1 != some e.2

end Folder

end Scribe
