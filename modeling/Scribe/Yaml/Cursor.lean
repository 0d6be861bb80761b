import Scribe.Yaml.Fault

/-!
# Places in a YAML text

A **cursor** is what is left of a text together with the line and the column reached. Carriage
returns have been turned into line feeds before, so the line breaks are the line feed, U+0085 and
the two Unicode separators; of these, only the first two end a comment or a plain scalar.

The predicates on `Option Char` take the end of the text, `none`, as one more character.
-/

namespace Scribe.Yaml

/-! ### Characters -/

/-- The byte order mark, which takes no column. -/
def byteOrderMark : Char := '\uFEFF'

/-- The character U+0085. -/
def nextLine : Char := '\u0085'

/-- The two separators of lines and paragraphs. -/
def isSeparator (c : Char) : Bool :=
  c == '\u2028' || c == '\u2029'

/-- The breaks that end a comment or a plain scalar. -/
def isHardBreak (c : Char) : Bool :=
  c == '\n' || c == nextLine

/-- **Line breaks.** -/
def isBreak (c : Char) : Bool :=
  isHardBreak c || isSeparator c

/-- A space or a tab. -/
def isBlankChar (c : Char) : Bool :=
  c == ' ' || c == '\t'

/-- A blank, a hard break or the end: what must follow an indicator. -/
def isGap : Option Char → Bool
  | none => true
  | some c => isBlankChar c || isHardBreak c

/-- A space, a break or the end: what must follow a tag or a directive. -/
def isSpaceOrBreak : Option Char → Bool
  | none => true
  | some c => c == ' ' || isBreak c

/-- The characters that stand between the items of a flow collection or around it. -/
def isFlowIndicator (c : Char) : Bool :=
  c == ',' || c == '[' || c == ']' || c == '{' || c == '}'

/-- A letter or digit of ASCII, a hyphen or an underscore. -/
def isWordChar (c : Char) : Bool :=
  c.isAlphanum || c == '-' || c == '_'

/-- A hexadecimal digit. -/
def isHexDigit (c : Char) : Bool :=
  c.isDigit || ('a' ≤ c && c ≤ 'f') || ('A' ≤ c && c ≤ 'F')

/-- The value of a hexadecimal digit. -/
def hexValue (c : Char) : Nat :=
  if c.isDigit then c.toNat - 48 else if c < 'a' then c.toNat - 55 else c.toNat - 87

/-- The number that hexadecimal digits denote. -/
def hexNumber (digits : List Char) : Nat :=
  digits.foldl (fun n c => 16 * n + hexValue c) 0

/-- **Printable characters**: those that a text may hold. -/
def isPrintable (c : Char) : Bool :=
  let n := c.toNat
  n == 0x09 || n == 0x0A || n == 0x0D || (0x20 ≤ n && n ≤ 0x7E) || n == 0x85 ||
    (0xA0 ≤ n && n ≤ 0xFFFD) || 0x10000 ≤ n

/-! ### Cursors -/

/-- **A cursor** in a text. -/
structure Cursor where
  /-- What is left of the text. -/
  rest : List Char
  /-- How many characters have been passed. -/
  index : Nat := 0
  /-- How many line breaks have been passed. -/
  line : Nat := 0
  /-- How many characters of the line have been passed. -/
  column : Nat := 0
  deriving Repr, DecidableEq

namespace Cursor

/-- The character at the cursor. -/
def peek (c : Cursor) : Option Char :=
  c.rest.head?

/-- The character some places after the cursor. -/
def peekAt (c : Cursor) (n : Nat) : Option Char :=
  c.rest[n]?

/-- Whether the cursor is at the character. -/
def isAt (c : Cursor) (x : Char) : Bool :=
  c.peek == some x

/-- The next place. -/
def next (c : Cursor) : Cursor :=
  match c.rest with
  | [] => c
  | x :: rest =>
    if isBreak x then ⟨rest, c.index + 1, c.line + 1, 0⟩
    else ⟨rest, c.index + 1, c.line, if x == byteOrderMark then c.column else c.column + 1⟩

/-- The place some characters on. -/
def skip : Nat → Cursor → Cursor
  | 0, c => c
  | n + 1, c => skip n c.next

/-- The characters of a class at the cursor, and the place after them. -/
def span (p : Char → Bool) (c : Cursor) : List Char × Cursor :=
  let found := c.rest.takeWhile p
  (found, c.skip found.length)

/-- The place after the characters of a class. -/
def skipWhile (p : Char → Bool) (c : Cursor) : Cursor :=
  (c.span p).2

/-- **A line break** at the cursor, as it counts in a scalar, and the place after it. -/
def lineBreak? (c : Cursor) : Option (Char × Cursor) :=
  match c.peek with
  | some x =>
    if isHardBreak x then some ('\n', c.next)
    else if isSeparator x then some (x, c.next)
    else none
  | none => none

/-- Whether three characters stand at the cursor, and a gap after them. -/
def isAtMark (c : Cursor) (x : Char) : Bool :=
  c.rest.take 3 == [x, x, x] && isGap (c.peekAt 3)

/-- Whether a mark between documents stands at the cursor. -/
def isAtSeparator (c : Cursor) : Bool :=
  c.isAtMark '-' || c.isAtMark '.'

/-- Whether the cursor is at the start of a line and at a mark between documents. -/
def isAtDocumentMark (c : Cursor) : Bool :=
  c.column == 0 && c.isAtSeparator

/-- The place after a comment, if one stands at the cursor. -/
def skipComment (c : Cursor) : Cursor :=
  if c.isAt '#' then c.skipWhile fun x => !isHardBreak x else c

/-- Skips spaces, comments and line breaks, as often as told; also whether a line break was among
them. In a flow collection tabs are skipped as well. -/
def skipGaps (inFlow : Bool) : Nat → Bool → Cursor → Bool × Cursor
  | 0, broke, c => (broke, c)
  | n + 1, broke, c =>
    let c := (c.skipWhile fun x => x == ' ' || (inFlow && x == '\t')).skipComment
    match c.lineBreak? with
    | some (_, c) => skipGaps inFlow n true c
    | none => (broke, c)

/-- **The place where the next token starts**, and whether a line break lies before it. A byte order
mark at the start of the text is skipped. -/
def toNextToken (inFlow : Bool) (c : Cursor) : Bool × Cursor :=
  let c := if c.index == 0 && c.isAt byteOrderMark then c.next else c
  skipGaps inFlow (c.rest.length + 1) false c

/-- The place after spaces and a comment, which must reach to the end of the line. -/
def skipLineEnd? (c : Cursor) : Option Cursor :=
  let c := (c.skipWhile (· == ' ')).skipComment
  match c.peek with
  | none => some c
  | some x => if isHardBreak x then some c.next else none

end Cursor

end Scribe.Yaml
