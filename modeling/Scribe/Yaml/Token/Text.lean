import Scribe.Yaml.Cursor
import Scribe.Yaml.Token

/-!
# Reading scalars

The three ways to write a scalar, and how line breaks inside one count.

* `Scribe.Yaml.readQuoted` – between quotes: a line break is a space, a run of several of them one
  break less;
* `Scribe.Yaml.readPlain` – without quotes: the same, up to what can no longer belong to it;
* `Scribe.Yaml.readBlock` – indented lines under a header: breaks are kept, or folded as above.

Loops are bounded by the number of characters left: each round passes at least one.
-/

namespace Scribe.Yaml

open Cursor

/-- What a run of line breaks counts as, the first of them being given: a line feed alone is a
space, and before further breaks it is nothing. -/
def foldBreaks (first : Char) (others : List Char) : List Char :=
  if first != '\n' then first :: others
  else if others.isEmpty then [' ']
  else others

/-! ### Quoted scalars -/

/-- Further line breaks inside quotes, with the blanks around them; no mark between documents may
come there. -/
def quotedBreaks : Nat → List Char → Cursor → Except Fault (List Char × Cursor)
  | 0, found, c => .ok (found.reverse, c)
  | n + 1, found, c =>
    if c.isAtSeparator then .error (.malformed .openQuote)
    else
      let c := c.skipWhile isBlankChar
      match c.lineBreak? with
      | some (x, c) => quotedBreaks n (x :: found) c
      | none => .ok (found.reverse, c)

/-- What blanks and line breaks inside quotes count as. -/
def quotedGap (c : Cursor) : Except Fault (List Char × Cursor) := do
  let (blanks, c) := c.span isBlankChar
  if c.rest.isEmpty then .error (.malformed .openQuote)
  else
    match c.lineBreak? with
    | none => pure (blanks, c)
    | some (first, c) =>
      let (others, c) ← quotedBreaks (c.rest.length + 1) [] c
      pure (foldBreaks first others, c)

/-- The escapes of one character. -/
def simpleEscapes : List (Char × Char) :=
  [('0', '\x00'), ('a', '\x07'), ('b', '\x08'), ('t', '\t'), ('\t', '\t'), ('n', '\n'),
    ('v', '\x0b'), ('f', '\x0c'), ('r', '\r'), ('e', '\x1b'), (' ', ' '), ('"', '"'), ('/', '/'),
    ('\\', '\\'), ('N', '\u0085'), ('_', '\u00A0'), ('L', '\u2028'), ('P', '\u2029')]

/-- The escapes by code point, with the number of their hexadecimal digits. -/
def codeEscapes : List (Char × Nat) :=
  [('x', 2), ('u', 4), ('U', 8)]

/-- What an escape stands for, the cursor being after its backslash. -/
def readEscape (c : Cursor) : Except Fault (List Char × Cursor) :=
  match c.peek with
  | none => .error (.malformed .escape)
  | some x =>
    match simpleEscapes.lookup x, codeEscapes.lookup x, c.lineBreak? with
    | some y, _, _ => .ok ([y], c.next)
    | none, some count, _ =>
      let digits := c.next.rest.take count
      let n := hexNumber digits
      if digits.length == count && digits.all isHexDigit && n.isValidChar then
        .ok ([Char.ofNat n], c.next.skip count)
      else .error (.malformed .escape)
    | none, none, some (_, c) => quotedBreaks (c.rest.length + 1) [] c
    | none, none, none => .error (.malformed .escape)

/-- The text up to the closing quote, last character first. -/
def quotedText (double : Bool) : Nat → List Char → Cursor → Except Fault (List Char × Cursor)
  | 0, _, _ => .error (.malformed .openQuote)
  | n + 1, text, c =>
    match c.rest with
    | [] => .error (.malformed .openQuote)
    | x :: rest =>
      if isBlankChar x || isBreak x then
        match quotedGap c with
        | .ok (gap, c) => quotedText double n (gap.reverse ++ text) c
        | .error e => .error e
      else if double && x == '"' then .ok (text, c.next)
      else if double && x == '\\' then
        match readEscape c.next with
        | .ok (found, c) => quotedText double n (found.reverse ++ text) c
        | .error e => .error e
      else if !double && x == '\'' then
        if rest.head? == some '\'' then quotedText double n ('\'' :: text) (c.skip 2)
        else .ok (text, c.next)
      else quotedText double n (x :: text) c.next

/-- **Reads a quoted scalar** at its opening quote. -/
def readQuoted (c : Cursor) : Except Fault (Token × Cursor) := do
  let (text, c) ← quotedText (c.isAt '"') (c.rest.length + 1) [] c.next
  pure (.scalar false (String.ofList text.reverse), c)

/-! ### Plain scalars -/

/-- Whether a plain scalar ends at a character, given what follows it. -/
def endsPlain (inFlow : Bool) (x : Char) (following : Option Char) : Bool :=
  if x == ':' then isGap following
  else isGap (some x) || (inFlow && isFlowIndicator x)

/-- How many characters of a line belong to a plain scalar. -/
def plainLength (inFlow : Bool) : List Char → Nat
  | [] => 0
  | x :: rest => if endsPlain inFlow x rest.head? then 0 else plainLength inFlow rest + 1

/-- Further line breaks in a plain scalar, with the spaces around them; nothing if a mark between
documents comes. -/
def plainBreaks : Nat → List Char → Cursor → Option (List Char) × Cursor
  | 0, found, c => (some found.reverse, c)
  | n + 1, found, c =>
    if c.isAtSeparator then (none, c)
    else
      let c := c.skipWhile (· == ' ')
      match c.peek, c.lineBreak? with
      | some x, some (y, d) => if isHardBreak x then plainBreaks n (y :: found) d
          else (some found.reverse, c)
      | _, _ => (some found.reverse, c)

/-- What the gap after a piece of a plain scalar counts as, whether it holds a line break, and the
place after it. -/
def plainGap (c : Cursor) : List Char × Bool × Cursor :=
  let (spaces, c) := c.span (· == ' ')
  match c.peek, c.lineBreak? with
  | some x, some (first, d) =>
    if isHardBreak x then
      match plainBreaks (d.rest.length + 1) [] d with
      | (some others, d) => (foldBreaks first others, true, d)
      | (none, d) => ([], true, d)
    else (spaces, false, c)
  | _, _ => (spaces, false, c)

/-- The pieces of a plain scalar after what has been read, whether a line break came last, and the
place after them. Outside flow collections all lines have to be indented. -/
def plainText (inFlow : Bool) (indent : Int) :
    Nat → List Char → List Char → Bool → Cursor → List Char × Bool × Cursor
  | 0, text, _, broke, c => (text, broke, c)
  | n + 1, text, gap, broke, c =>
    let count := plainLength inFlow c.rest
    if c.isAt '#' || count == 0 then (text, broke, c)
    else
      let text := text ++ gap ++ c.rest.take count
      let (gap, broke, c) := plainGap (c.skip count)
      if gap.isEmpty || c.isAt '#' || (!inFlow && (c.column : Int) < indent) then (text, broke, c)
      else plainText inFlow indent n text gap broke c

/-- **Reads a plain scalar**; also whether the line ended with it. -/
def readPlain (inFlow : Bool) (indent : Int) (c : Cursor) : Token × Bool × Cursor :=
  let (text, broke, c) := plainText inFlow indent (c.rest.length + 1) [] [] false c
  (.scalar true (String.ofList text), broke, c)

/-! ### Block scalars -/

/-- **The header of a block scalar**: what becomes of the line breaks at its end, and by how much it
is indented. -/
structure BlockHeader where
  /-- Keep all of them, keep none, or else keep one. -/
  keep : Option Bool := none
  /-- The indentation beyond that of the parent, if it is told. -/
  increment : Option Nat := none
  deriving Repr, DecidableEq

/-- A character of a header, if it may come now. -/
def BlockHeader.put? (h : BlockHeader) (x : Char) : Option BlockHeader :=
  if (x == '+' || x == '-') && h.keep.isNone then some { h with keep := some (x == '+') }
  else if x.isDigit && x != '0' && h.increment.isNone then
    some { h with increment := some (x.toNat - 48) }
  else none

/-- Reads up to two characters of a header. -/
def readHeader : Nat → BlockHeader → Cursor → BlockHeader × Cursor
  | 0, h, c => (h, c)
  | n + 1, h, c =>
    match c.peek.bind h.put? with
    | some h => readHeader n h c.next
    | none => (h, c)

/-- Empty lines before the first line of a block scalar: their breaks, the column of the first of
them, and the largest column that spaces reach. -/
def leadingLines : Nat → List Char → Option Nat → Nat → Cursor →
    List Char × Option Nat × Nat × Cursor
  | 0, found, first, deepest, c => (found.reverse, first, deepest, c)
  | n + 1, found, first, deepest, c =>
    if c.isAt ' ' then leadingLines n found first (max deepest c.next.column) c.next
    else
      match c.lineBreak? with
      | some (x, d) => leadingLines n (x :: found) (some (first.getD c.column)) deepest d
      | none => (found.reverse, first, deepest, c)

/-- The place after spaces up to a column. -/
def toColumn (column : Nat) (c : Cursor) : Cursor :=
  c.skip ((c.rest.take (column - c.column)).takeWhile (· == ' ')).length

/-- Empty lines of a block scalar that is indented to a column: their breaks. -/
def blockBreaks (column : Nat) : Nat → List Char → Cursor → List Char × Cursor
  | 0, found, c => (found.reverse, c)
  | n + 1, found, c =>
    let c := toColumn column c
    match c.lineBreak? with
    | some (x, c) => blockBreaks column n (x :: found) c
    | none => (found.reverse, c)

/-- Whether a line of a folded scalar stays apart: it is further indented. -/
def isIndentedMore (c : Cursor) : Bool :=
  c.peek.elim false isBlankChar

/-- The breaks at the end of a block scalar that stay. -/
def keptBreaks (keep : Option Bool) (last : List Char) (others : List Char) : List Char :=
  match keep with
  | none => last
  | some true => last ++ others
  | some false => []

/-- The lines of a block scalar that is indented to a column, after what has been read and the
breaks before them. At the left margin a mark between documents ends it. -/
def blockLines (folded : Bool) (keep : Option Bool) (atMargin : Bool) (column : Nat) :
    Nat → List Char → List Char → Cursor → List Char × Cursor
  | 0, text, _, c => (text, c)
  | n + 1, text, breaks, c =>
    let apart := isIndentedMore c
    let (line, c) := c.span fun x => !isHardBreak x
    let text := text ++ breaks ++ line
    let (last, c) := c.lineBreak?.elim ([], c) fun r => ([r.1], r.2)
    let (breaks, c) := blockBreaks column (c.rest.length + 1) [] c
    let ended := c.column != column || c.rest.isEmpty || (atMargin && c.isAtDocumentMark)
    if ended then (text ++ keptBreaks keep last breaks, c)
    else if folded && last == ['\n'] && !apart && !isIndentedMore c then
      blockLines folded keep atMargin column n
        (text ++ if breaks.isEmpty then [' '] else []) breaks c
    else blockLines folded keep atMargin column n (text ++ last) breaks c

/-- **Reads a block scalar** at its indicator, under a parent of some indentation. -/
def readBlock (indent : Int) (c : Cursor) : Except Fault (Token × Cursor) := do
  let folded := c.isAt '>'
  let (h, c) := readHeader 2 {} c.next
  if !isSpaceOrBreak c.peek then .error (.malformed .blockScalar)
  else
    match c.skipLineEnd? with
    | none => .error (.malformed .blockScalar)
    | some c =>
      let least := (indent + 1).toNat
      let (breaks, column, c) ←
        match h.increment with
        | some k => do
          let column := max least 1 + k - 1
          let (breaks, c) := blockBreaks column (c.rest.length + 1) [] c
          pure (breaks, column, c)
        | none =>
          let (breaks, first, deepest, c) := leadingLines (c.rest.length + 1) [] none 0 c
          if first.elim false fun f => 0 < f && f < deepest then .error (.malformed .blockScalar)
          else pure (breaks, max least deepest, c)
      let (text, c) :=
        if c.column == column && !c.rest.isEmpty then
          blockLines folded h.keep (least == 0) column (c.rest.length + 1) [] breaks c
        else (keptBreaks h.keep [] breaks, c)
      pure (.scalar false (String.ofList text), c)

end Scribe.Yaml
