import Scribe.Yaml.Token.Name
import Scribe.Yaml.Token.Text

/-!
# From text to tokens

**The lexer** reads one token after the other. Two things make it more than a list of cases. The
indentation of block collections is kept on a stack, and tokens for their starts and ends are made
from it. And that something is a key is known only when its colon comes: until then its place among
the tokens is remembered, and the tokens for the key, and for the map that starts with it, are put
in there.

* `Scribe.Yaml.Lexer.step?` – reads one token;
* `Scribe.Yaml.tokens` – all tokens of a text.
-/

namespace Scribe.Yaml

open Cursor

/-- **Something that may turn out to be a key**: it must stand on one line, and the colon must come
within 1024 characters. -/
structure PossibleKey where
  /-- How many flow collections are open around it. -/
  level : Nat
  /-- Its place among the tokens. -/
  place : Nat
  /-- Whether nothing but a key may stand there. -/
  required : Bool
  /-- Where it starts. -/
  index : Nat
  line : Nat
  column : Nat
  deriving Repr, DecidableEq

/-- Whether a possible key is still possible at a cursor. -/
def PossibleKey.isOpenAt (k : PossibleKey) (c : Cursor) : Bool :=
  k.line == c.line && c.index - k.index ≤ 1024

/-- **The state of the lexer.** -/
structure Lexer where
  /-- Where it is. -/
  cursor : Cursor
  /-- The tokens read so far. -/
  tokens : Array Token := #[]
  /-- The column of the innermost block collection, `-1` if none is open. -/
  indent : Int := -1
  /-- The columns around it, the innermost first. -/
  outer : List Int := []
  /-- The open flow collections, the innermost first: whether each is a list. -/
  flow : List Bool := []
  /-- Whether a key may start at the next token. -/
  keyAllowed : Bool := true
  /-- What may still turn out to be a key, at most one for each level. -/
  keys : List PossibleKey := []

namespace Lexer

/-- Whether a flow collection is open. -/
def inFlow (l : Lexer) : Bool :=
  !l.flow.isEmpty

/-- The lexer with one more token. -/
def emit (l : Lexer) (t : Token) : Lexer :=
  { l with tokens := l.tokens.push t }

/-- The lexer with a token put in among those read. -/
def emitAt (l : Lexer) (place : Nat) (t : Token) : Lexer :=
  { l with tokens := (l.tokens.extract 0 place).push t ++ l.tokens.extract place l.tokens.size }

/-! ### Keys -/

/-- Drops the possible keys of which something holds; a required one must not be among them. -/
def dropKeys (l : Lexer) (p : PossibleKey → Bool) : Except Fault Lexer :=
  if l.keys.any fun k => p k && k.required then .error (.malformed .keyWithoutColon)
  else .ok { l with keys := l.keys.filter fun k => !p k }

/-- Drops the keys for which it is too late. -/
def dropLateKeys (l : Lexer) : Except Fault Lexer :=
  l.dropKeys fun k => !k.isOpenAt l.cursor

/-- Drops the possible key of the present level. -/
def dropKey (l : Lexer) : Except Fault Lexer :=
  l.dropKeys fun k => k.level == l.flow.length

/-- Remembers that the next token may turn out to be a key. -/
def saveKey (l : Lexer) : Except Fault Lexer :=
  if !l.keyAllowed then .ok l
  else do
    let l ← l.dropKey
    let c := l.cursor
    let required := !l.inFlow && l.indent == (c.column : Int)
    pure { l with
      keys := ⟨l.flow.length, l.tokens.size, required, c.index, c.line, c.column⟩ :: l.keys }

/-! ### Indentation -/

/-- Closes the given block collections, up to one at the column or to the left of it. -/
def closeBlocks (column : Int) : List Int → Lexer → Lexer
  | [], l => l
  | i :: outer, l =>
    if column < l.indent then
      closeBlocks column outer ({ l with indent := i, outer := outer }.emit .blockEnd)
    else l

/-- Closes the block collections to the right of a column, unless a flow collection is open. -/
def unwind (l : Lexer) (column : Int) : Lexer :=
  if l.inFlow then l else closeBlocks column l.outer l

/-- Opens a block collection at a column, if that is to the right of the present one. -/
def opensAt? (l : Lexer) (column : Nat) : Option Lexer :=
  if l.indent < (column : Int) then
    some { l with indent := column, outer := l.indent :: l.outer }
  else none

/-- Opens a block collection here, if one starts. -/
def openBlock (l : Lexer) (start : Token) : Lexer :=
  ((l.opensAt? l.cursor.column).map fun l => l.emit start).getD l

/-! ### One token -/

/-- A token of some characters. -/
def fixed (l : Lexer) (t : Token) (count : Nat) : Lexer :=
  { l with cursor := l.cursor.skip count }.emit t

/-- A directive, or a mark between documents: no block collection goes on. -/
def betweenDocuments (l : Lexer) : Except Fault Lexer := do
  let l ← (l.unwind (-1)).dropKey
  pure { l with keyAllowed := false }

/-- An indicator in a block collection, which may start one; or in a flow collection. -/
def blockIndicator (l : Lexer) (start t : Token) : Except Fault Lexer := do
  if !l.inFlow && !l.keyAllowed then .error (.malformed .misplaced)
  else
    let l ← (if l.inFlow then l else l.openBlock start).dropKey
    pure (l.fixed t 1)

/-- A value indicator. After something that may be a key, the tokens for the key are put in. -/
def valueIndicator (l : Lexer) : Except Fault Lexer :=
  match l.keys.find? fun k => k.level == l.flow.length with
  | some k =>
    let l := { l with keys := l.keys.filter fun k => k.level != l.flow.length }
    let l := l.emitAt k.place .key
    let l := if l.inFlow then l
      else ((l.opensAt? k.column).map fun l => l.emitAt k.place .blockMapStart).getD l
    .ok ({ l with keyAllowed := false }.fixed .value 1)
  | none => do
    let l ← l.blockIndicator .blockMapStart .value
    pure { l with keyAllowed := !l.inFlow }

/-- A token that may be a key or stand in front of one, read at the cursor. -/
def keyLike (l : Lexer) (read : Cursor → Except Fault (Token × Cursor)) : Except Fault Lexer := do
  let l ← l.saveKey
  let (t, c) ← read l.cursor
  pure ({ l with cursor := c, keyAllowed := false }.emit t)

/-- The start of a flow collection. -/
def flowStart (l : Lexer) (isList : Bool) (t : Token) : Except Fault Lexer := do
  let l ← l.saveKey
  pure ({ l with flow := isList :: l.flow, keyAllowed := true }.fixed t 1)

/-- The end of a flow collection. -/
def flowEnd (l : Lexer) (t : Token) : Except Fault Lexer := do
  let l ← l.dropKey
  pure ({ l with flow := l.flow.tail, keyAllowed := false }.fixed t 1)

/-- A block scalar. -/
def blockScalar (l : Lexer) : Except Fault Lexer := do
  let l ← l.dropKey
  let (t, c) ← readBlock l.indent l.cursor
  pure ({ l with cursor := c, keyAllowed := true }.emit t)

/-- A plain scalar. -/
def plainScalar (l : Lexer) : Except Fault Lexer := do
  let l ← l.saveKey
  let (t, broke, c) := readPlain l.inFlow (l.indent + 1) l.cursor
  pure ({ l with cursor := c, keyAllowed := broke }.emit t)

/-- The characters at which no plain scalar starts, `-`, `?` and `:` aside. -/
def isIndicator (x : Char) : Bool :=
  isFlowIndicator x || isBlankChar x || isBreak x ||
    ['#', '&', '*', '!', '|', '>', '\'', '"', '%', '@', '`'].contains x

/-- Whether a plain scalar starts at the cursor. -/
def startsPlain (l : Lexer) (x : Char) : Bool :=
  let following := l.cursor.peekAt 1
  if x == '-' then !isGap following
  else if x == '?' then !l.inFlow && !isGap following
  else if x == ':' then
    if l.inFlow then !following.elim false isBlankChar else !isGap following
  else !isIndicator x

/-- Whether a colon at the cursor is a value indicator. `held` tells that tokens are held back for a
possible key. -/
def isValueIndicator (l : Lexer) (held : Bool) : Bool :=
  let gap := isGap (l.cursor.peekAt 1)
  match l.flow with
  | [] => gap
  | true :: _ => gap
  | false :: _ => gap || !(held && l.tokens.back? == some .value)

/-- **The token at the cursor**, by its first character. -/
def token (l : Lexer) (held : Bool) (x : Char) : Except Fault Lexer :=
  let gap := isGap (l.cursor.peekAt 1)
  if x == '%' && l.cursor.column == 0 then do
    let l ← l.betweenDocuments
    let (t, c) ← readDirective l.cursor
    pure ({ l with cursor := c }.emit t)
  else if x == '-' && l.cursor.column == 0 && l.cursor.isAtMark '-' then
    l.betweenDocuments.map fun l => l.fixed .documentStart 3
  else if x == '.' && l.cursor.column == 0 && l.cursor.isAtMark '.' then
    l.betweenDocuments.map fun l => l.fixed .documentEnd 3
  else if x == '[' then l.flowStart true .flowListStart
  else if x == '{' then l.flowStart false .flowMapStart
  else if x == ']' then l.flowEnd .flowListEnd
  else if x == '}' then l.flowEnd .flowMapEnd
  else if x == ',' then
    l.dropKey.map fun l => { l with keyAllowed := true }.fixed .flowEntry 1
  else if x == '-' && gap then
    (l.blockIndicator .blockListStart .blockEntry).map fun l => { l with keyAllowed := true }
  else if x == '?' && (l.inFlow || gap) then
    (l.blockIndicator .blockMapStart .key).map fun l => { l with keyAllowed := !l.inFlow }
  else if x == ':' && l.isValueIndicator held then l.valueIndicator
  else if x == '*' then l.keyLike (readAnchor .aliasTo)
  else if x == '&' then l.keyLike (readAnchor .anchor)
  else if x == '!' then l.keyLike readTag
  else if (x == '|' || x == '>') && !l.inFlow then l.blockScalar
  else if x == '\'' || x == '"' then l.keyLike readQuoted
  else if l.startsPlain x then l.plainScalar
  else .error (.malformed .noToken)

/-- **One step**: the gap before the next token is skipped, block collections are closed that do not
go on, and the token is read; nothing is left to do at the end of the text. -/
def step? (l : Lexer) : Except Fault (Lexer × Bool) := do
  let l ← l.dropLateKeys
  let held := !l.keys.isEmpty
  let (broke, c) := l.cursor.toNextToken l.inFlow
  let l := { l with cursor := c, keyAllowed := l.keyAllowed || (broke && !l.inFlow) }
  let l ← l.dropLateKeys
  match c.peek with
  | none => do
    let l ← ((l.unwind c.column).unwind (-1)).dropKey
    pure (l, true)
  | some x => do
    let l ← (l.unwind c.column).token held x
    pure (l, false)

/-- Steps up to the end of the text, as many as told. -/
def run : Nat → Lexer → Except Fault Lexer
  | 0, l => .ok l
  | n + 1, l =>
    match l.step? with
    | .error e => .error e
    | .ok (l, true) => .ok l
    | .ok (l, false) => run n l

end Lexer

/-- **The tokens** of a text, which may hold printable characters only. Every step passes a
character. -/
def tokens (text : List Char) : Except Fault (List Token) :=
  if !text.all isPrintable then .error (.malformed .character)
  else (Lexer.run (text.length + 1) { cursor := { rest := text } }).map fun l => l.tokens.toList

end Scribe.Yaml
