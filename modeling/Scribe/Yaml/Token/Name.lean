import Scribe.Yaml.Cursor
import Scribe.Yaml.Token

/-!
# Reading names

Directives, anchors, aliases and tags, each read at a cursor that stands at the first character of
the token.
-/

namespace Scribe.Yaml

open Cursor

/-! ### Tags -/

/-- The characters of a tag, `%` aside. -/
def isTagChar (c : Char) : Bool :=
  c.isAlphanum ||
    ['-', ';', '/', '?', ':', '@', '&', '=', '+', '$', ',', '_', '.', '!', '~', '*', '\'', '(', ')',
      '[', ']', '#'].contains c

/-- The bytes that a run of `%` escapes denotes, and the place after it. -/
def escapedBytes : Nat → Cursor → Option (List UInt8 × Cursor)
  | 0, c => some ([], c)
  | n + 1, c =>
    match c.rest with
    | '%' :: a :: b :: _ =>
      if isHexDigit a && isHexDigit b then
        (escapedBytes n (c.skip 3)).map fun r => (UInt8.ofNat (hexNumber [a, b]) :: r.1, r.2)
      else none
    | '%' :: _ => none
    | _ => some ([], c)

/-- The text of a tag, in pieces: characters, and runs of `%` escapes. -/
def tagPieces : Nat → Cursor → Option (List Char × Cursor)
  | 0, c => some ([], c)
  | n + 1, c =>
    let (text, c) := c.span isTagChar
    if c.isAt '%' then
      match escapedBytes c.rest.length c with
      | none => none
      | some (bytes, c) =>
        match String.fromUTF8? ⟨bytes.toArray⟩ with
        | none => none
        | some s => (tagPieces n c).map fun r => (text ++ s.toList ++ r.1, r.2)
    else some (text, c)

/-- The text of a tag, which must not be empty. -/
def tagText (c : Cursor) : Except Fault (String × Cursor) :=
  match tagPieces (c.rest.length + 1) c with
  | some (x :: text, c) => .ok (String.ofList (x :: text), c)
  | _ => .error (.malformed .tag)

/-- A tag handle: an exclamation mark, or a word between two. -/
def tagHandle (c : Cursor) : Except Fault (String × Cursor) :=
  let (word, d) := c.next.span isWordChar
  if !c.isAt '!' then .error (.malformed .tag)
  else if c.next.isAt ' ' then .ok ("!", c.next)
  else if d.isAt '!' then .ok (String.ofList ('!' :: word ++ ['!']), d.next)
  else .error (.malformed .tag)

/-- A token that a space or the end of the line must follow. -/
def withGapAfter (t : Token) (c : Cursor) : Except Fault (Token × Cursor) :=
  if isSpaceOrBreak c.peek then .ok (t, c) else .error (.malformed .tag)

/-- **Reads a tag**: in full between angle brackets, a lone exclamation mark, or a handle and what
follows it. -/
def readTag (c : Cursor) : Except Fault (Token × Cursor) :=
  if c.peekAt 1 == some '<' then do
    let (text, c) ← tagText (c.skip 2)
    if c.isAt '>' then withGapAfter (.tag none text) c.next else .error (.malformed .tag)
  else if isGap (c.peekAt 1) then withGapAfter (.tag none "!") c.next
  else do
    let named := (c.rest.tail.takeWhile fun x => !isSpaceOrBreak (some x)).contains '!'
    let (handle, c) ← if named then tagHandle c else pure ("!", c.next)
    let (text, c) ← tagText c
    withGapAfter (.tag (some handle) text) c

/-! ### Anchors -/

/-- The characters of the name of an anchor. -/
def isAnchorChar (c : Char) : Bool :=
  let n := c.toNat
  !isFlowIndicator c && c != byteOrderMark && ((0x21 ≤ n && n ≤ 0x7E) || 0xA0 ≤ n)

/-- **Reads the name** of an anchor or alias. -/
def readAnchor (token : String → Token) (c : Cursor) : Except Fault (Token × Cursor) :=
  let (name, c) := c.next.span isAnchorChar
  let ended := c.peek.elim true fun x => isBlankChar x || isBreak x || isFlowIndicator x
  if name.isEmpty || !ended then .error (.malformed .anchor)
  else .ok (token (String.ofList name), c)

/-! ### Directives -/

/-- A number in a directive. -/
def versionNumber (c : Cursor) : Except Fault (Nat × Cursor) :=
  let (digits, c) := c.span Char.isDigit
  if digits.isEmpty then .error (.malformed .directive)
  else .ok (digits.foldl (fun n d => 10 * n + (d.toNat - 48)) 0, c)

/-- What a directive of a name says. -/
def directiveBody (name : List Char) (c : Cursor) : Except Fault (Directive × Cursor) :=
  if name == ['Y', 'A', 'M', 'L'] then do
    let (major, c) ← versionNumber (c.skipWhile (· == ' '))
    if !c.isAt '.' then .error (.malformed .directive)
    else
      let (minor, c) ← versionNumber c.next
      if isSpaceOrBreak c.peek then pure (.version major minor, c)
      else .error (.malformed .directive)
  else if name == ['T', 'A', 'G'] then do
    let (handle, c) ← tagHandle (c.skipWhile (· == ' '))
    if !c.isAt ' ' then .error (.malformed .directive)
    else
      let (stem, c) ← tagText (c.skipWhile (· == ' '))
      if isSpaceOrBreak c.peek then pure (.handle handle stem, c)
      else .error (.malformed .directive)
  else .ok (.other, c.skipWhile fun x => !isHardBreak x)

/-- **Reads a directive** with the end of its line. -/
def readDirective (c : Cursor) : Except Fault (Token × Cursor) := do
  let (name, c) := c.next.span fun x => isWordChar x || x == ':' || x == '.'
  if name.isEmpty || !isSpaceOrBreak c.peek then .error (.malformed .directive)
  else
    let (d, c) ← directiveBody name c
    match c.skipLineEnd? with
    | some c => pure (.directive d, c)
    | none => .error (.malformed .directive)

end Scribe.Yaml
