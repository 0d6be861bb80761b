import Scribe.Value
import Scribe.Yaml.Cursor
import Scribe.Yaml.Scalar

/-!
# Writing YAML

A value as a text in block style, with two columns for each level and the items of a list not
indented under their key. Scalars are written plainly where they read back as they are; otherwise
between single quotes, or between double quotes with escapes if they hold a line feed, a single
quote or a character that does not show. A scalar is never folded: it stays on one line, however
wide.

* `Scribe.Yaml.styleOf` – how a string is written;
* `Scribe.Yaml.print` – the text of a value.
-/

namespace Scribe.Yaml

/-! ### How a string may be written -/

/-- A space, tab or break, or the start or end of the text. -/
def isEdge : Option Char → Bool
  | none => true
  | some c => isBlankChar c || isBreak c || c == '\x00' || c == '\r'

/-- Whether a character shows as it is: no control character, no noncharacter and no byte order
mark. -/
def isShown (c : Char) : Bool :=
  let n := c.toNat
  c == '\n' || (0x20 ≤ n && n ≤ 0x7E) || c == nextLine ||
    (((0xA0 ≤ n && n ≤ 0xFFFD) || 0x10000 ≤ n) && c != byteOrderMark)

/-- Whether the first character, with what follows it, cannot start a plain scalar. -/
def isBadStart (c : Char) (following : Option Char) : Bool :=
  [',', '#', '[', ']', '{', '}', '&', '*', '!', '|', '>', '\'', '"', '%', '@', '`'].contains c ||
    ((c == '?' || c == ':' || c == '-') && isEdge following)

/-- Whether a later character ends a plain scalar: a colon before an edge, or a comment. -/
def hasBadMiddle : Char → List Char → Bool
  | _, [] => false
  | before, c :: rest =>
    (c == ':' && isEdge rest.head?) || (c == '#' && isEdge (some before)) || hasBadMiddle c rest

/-- Whether two characters of given classes stand next to each other. -/
def hasPair (p q : Char → Bool) : List Char → Bool
  | a :: b :: rest => (p a && q b) || hasPair p q (b :: rest)
  | _ => false

/-- Whether a text starts with a mark between documents. -/
def startsWithMark (s : List Char) : Bool :=
  s.take 3 == ['-', '-', '-'] || s.take 3 == ['.', '.', '.']

/-- Whether a text can stand without quotes, what it would be read as left aside. -/
def isPlainSafe : List Char → Bool
  | [] => true
  | c :: rest =>
    let s := c :: rest
    !startsWithMark s && !isBadStart c rest.head? && !hasBadMiddle c rest && s.all isShown &&
      !s.any isBreak && c != ' ' && s.getLast? != some ' '

/-- Whether a text can stand between single quotes: all of it shows, and no space stands next to a
break. -/
def isSingleSafe (s : List Char) : Bool :=
  s.all isShown && !hasPair (· == ' ') isBreak s && !hasPair isBreak (· == ' ') s

/-- **The ways to write a string.** -/
inductive Style where
  | plain
  | single
  | double
  deriving Repr, DecidableEq

/-- **How a string is written.** A key on one line must not be empty without quotes. -/
def styleOf (s : List Char) : Style :=
  if Kind.ofPlain s == .string && isPlainSafe s then .plain
  else if s.contains '\'' || s.contains '\n' || !isSingleSafe s then .double
  else .single

/-! ### Scalars -/

/-- The digits of a number below a power of sixteen. -/
def hexDigits : Nat → Nat → List Char
  | 0, _ => []
  | count + 1, n => hexDigits count (n / 16) ++ [(Nat.digitChar (n % 16)).toUpper]

/-- The escapes that are one letter. -/
def letterEscapes : List (Char × Char) :=
  [('\x00', '0'), ('\x07', 'a'), ('\x08', 'b'), ('\t', 't'), ('\n', 'n'), ('\x0b', 'v'),
    ('\x0c', 'f'), ('\r', 'r'), ('\x1b', 'e'), ('"', '"'), ('\\', '\\'), ('\u0085', 'N'),
    ('\u2028', 'L'), ('\u2029', 'P')]

/-- A character between double quotes. -/
def escaped (c : Char) : List Char :=
  match letterEscapes.lookup c with
  | some x => ['\\', x]
  | none =>
    if isShown c then [c]
    else if c.toNat ≤ 0xFF then '\\' :: 'x' :: hexDigits 2 c.toNat
    else if c.toNat ≤ 0xFFFF then '\\' :: 'u' :: hexDigits 4 c.toNat
    else '\\' :: 'U' :: hexDigits 8 c.toNat

/-- The characters between single quotes: a line that goes on after a break is indented. -/
def singleText (indent : Nat) : List Char → List Char
  | [] => []
  | c :: rest =>
    if isBreak c && !(rest.head?.elim false isBreak) then
      c :: List.replicate indent ' ' ++ singleText indent rest
    else c :: singleText indent rest

/-- **The text of a string**, whose further lines are indented to a column. -/
def stringText (indent : Nat) (s : List Char) : List Char :=
  match styleOf s with
  | .plain => s
  | .single => '\'' :: singleText indent s ++ ['\'']
  | .double => '"' :: s.flatMap escaped ++ ['"']

/-- The text of a value other than a list or map with content, if it has one. -/
def scalarText? (indent : Nat) : Value → Option (List Char)
  | .null => some []
  | .bool b => some (if b then ['t', 'r', 'u', 'e'] else ['f', 'a', 'l', 's', 'e'])
  | .int n => some (Text.intText n)
  | .float x => some (Text.timeText x)
  | .str s => some (stringText indent s.toList)
  | .date text => some text.toList
  | .bytes _ => some []
  | .list [] => some ['[', ']']
  | .map [] => some ['{', '}']
  | .list _ | .map _ => none

/-! ### Blocks -/

/-- The longest string that is a key on one line with its value. -/
def longestKey : Nat := 122

/-- Whether a key stands on one line with its value. -/
def isSimpleKey : Value → Bool
  | .str s => s.length ≤ longestKey && !s.toList.any isBreak
  | _ => true

/-- An indicator and what follows it on the line. -/
def afterIndicator (indicator text : List Char) : List Char :=
  if text.isEmpty then indicator else indicator ++ ' ' :: text

/-- Lines under an indicator that takes two columns of the first of them. -/
def hung (indicator : Char) : List (List Char) → List (List Char)
  | [] => [[indicator]]
  | line :: lines => (indicator :: ' ' :: line) :: lines.map fun l => ' ' :: ' ' :: l

/-- The lines of a key that does not stand on one line with its value. -/
def longKeyLines (column : Nat) (k : Value) : List (List Char) :=
  hung '?' [(scalarText? (column + 2) k).getD []]

/-- The start of the line of a key, up to its colon. -/
def keyText (column : Nat) (k : Value) : List Char :=
  (scalarText? (column + 2) k).getD [] ++ [':']

mutual

/-- **The lines of a value** that starts at a column. -/
def lines (column : Nat) : Value → List (List Char)
  | .list (v :: vs) => itemLines column (v :: vs)
  | .map (e :: es) => entryLines column (e :: es)
  | v => [(scalarText? (column + 2) v).getD []]

/-- The lines of the items of a list. -/
def itemLines (column : Nat) : List Value → List (List Char)
  | [] => []
  | v :: vs =>
    (match scalarText? (column + 2) v with
      | some text => [afterIndicator ['-'] text]
      | none => hung '-' (lines (column + 2) v)) ++ itemLines column vs

/-- The lines of the entries of a map. -/
def entryLines (column : Nat) : List (Value × Value) → List (List Char)
  | [] => []
  | (k, v) :: es =>
    (if isSimpleKey k then
      match v with
      | .list (x :: xs) => keyText column k :: itemLines column (x :: xs)
      | .map (x :: xs) =>
        keyText column k :: (entryLines (column + 2) (x :: xs)).map fun l => ' ' :: ' ' :: l
      | v => [afterIndicator (keyText column k) ((scalarText? (column + 2) v).getD [])]
    else longKeyLines column k ++ hung ':' (lines (column + 2) v)) ++ entryLines column es

end

/-- **The text of a value.** -/
def print (v : Value) : List Char :=
  (lines 0 v).flatMap fun line => line ++ ['\n']

end Scribe.Yaml
