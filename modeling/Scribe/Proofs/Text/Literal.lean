import Mathlib
import Scribe.Text.Quoted

/-!
# Reading string literals

**The grammars of string literals**, as the definitions of the four languages give them: what a
backslash may precede, which characters may not stand in a literal as they are, and which literals
begin with the same quote but are others. `Scribe.Text.Dialect.readLiteral` reads the literal at the
front of a text, and gives its value and what follows it.

* `Scribe.Text.Dialect.readEscape` – what a backslash and the characters after it stand for;
* `Scribe.Text.Dialect.readBody` – a literal from behind its opening quote to its closing one;
* `Scribe.Text.Dialect.translate` – what happens to a text before literals are looked for: Java
  replaces its Unicode escapes everywhere, also outside literals.

A value is a text, so escapes of the halves of surrogate pairs are refused. Refused are also escapes
that need the table of character names (Python), and the numbers in base eight that a strict script
may not hold (JavaScript). Whatever is read here is read in the same way by the full grammars.
-/

namespace Scribe.Text

/-! ### Numbers in escapes -/

/-- The value of a digit of a base, its letters in either case. -/
def digitIn? (base : ℕ) (c : Char) : Option ℕ :=
  (if '0' ≤ c ∧ c ≤ '9' then some (c.toNat - 48)
    else if 'a' ≤ c ∧ c ≤ 'f' then some (c.toNat - 87)
    else if 'A' ≤ c ∧ c ≤ 'F' then some (c.toNat - 55)
    else none).filter (· < base)

/-- **The number at the front of a text**, of as many digits as there are up to a bound, and how
many there are. -/
def leadingNumber (base most : ℕ) (text : List Char) : ℕ × ℕ :=
  let digits := (text.take most).takeWhile fun c => (digitIn? base c).isSome
  (ofDigits base (digits.filterMap (digitIn? base)), digits.length)

/-- The character of a code point, unless it is half of a surrogate pair or beyond the last one. -/
def charOf? (n : ℕ) : Option Char :=
  if n.isValidChar then some (Char.ofNat n) else none

/-- The character that a number of between `least` and `most` digits stands for, and how many digits
it has. -/
def numberedChar? (base least most : ℕ) (text : List Char) : Option (Char × ℕ) :=
  let (n, count) := leadingNumber base most text
  if least ≤ count then (charOf? n).map (·, count) else none

/-! ### Escapes -/

/-- The escapes of one letter. -/
def Dialect.letterEscapes : Dialect → List (Char × Char)
  | .javaScript => [('\'', '\''), ('"', '"'), ('\\', '\\'), ('b', '\x08'), ('f', '\x0c'),
      ('n', '\n'), ('r', '\r'), ('t', '\t'), ('v', '\x0b')]
  | .python => [('\\', '\\'), ('\'', '\''), ('"', '"'), ('a', '\x07'), ('b', '\x08'),
      ('f', '\x0c'), ('n', '\n'), ('r', '\r'), ('t', '\t'), ('v', '\x0b')]
  | .csharp => [('\'', '\''), ('"', '"'), ('\\', '\\'), ('0', '\x00'), ('a', '\x07'),
      ('b', '\x08'), ('f', '\x0c'), ('n', '\n'), ('r', '\r'), ('t', '\t'), ('v', '\x0b')]
  | .java => [('b', '\x08'), ('s', ' '), ('t', '\t'), ('n', '\n'), ('f', '\x0c'), ('r', '\r'),
      ('"', '"'), ('\'', '\''), ('\\', '\\')]

/-- The letters in front of hexadecimal numbers, with the least and the greatest count of digits. -/
def Dialect.hexEscapes : Dialect → List (Char × ℕ × ℕ)
  | .javaScript => [('x', 2, 2), ('u', 4, 4)]
  | .python => [('x', 2, 2), ('u', 4, 4), ('U', 8, 8)]
  | .csharp => [('x', 1, 4), ('u', 4, 4), ('U', 8, 8)]
  | .java => []

/-- The characters that end a line, and cannot stand in a literal as they are. -/
def Dialect.lineEnds : Dialect → List Char
  | .javaScript => ['\n', '\r', '\u2028', '\u2029']
  | .python | .java => ['\n', '\r']
  | .csharp => ['\n', '\r', '\u0085', '\u2028', '\u2029']

/-- An escaped line end, where a literal may go on after one: it stands for nothing. -/
def lineContinuation (ends : List Char) (c : Char) (rest : List Char) :
    Option (List Char × ℕ) :=
  if c = '\r' && rest.head? == some '\n' then some ([], 2)
  else if ends.contains c then some ([], 1)
  else none

/-- The escapes of a dialect that are neither a letter nor a hexadecimal number of bounded length,
the character after the backslash being given. -/
def Dialect.otherEscape (d : Dialect) (c : Char) (rest : List Char) : Option (List Char × ℕ) :=
  match d with
  | .javaScript =>
    if c = '0' then
      if rest.head?.any Char.isDigit then none else some (['\x00'], 1)
    else if c.isDigit || c = 'x' || c = 'u' then none
    else (lineContinuation d.lineEnds c rest).or (some ([c], 1))
  | .python =>
    (lineContinuation d.lineEnds c rest).or
      ((numberedChar? 8 1 3 (c :: rest)).map fun x => ([x.1], x.2))
  | .java => (numberedChar? 8 1 (if c ≤ '3' then 3 else 2) (c :: rest)).map fun x => ([x.1], x.2)
  | .csharp => none

/-- A code point in braces, after the letter in front of them: any number of digits. -/
def bracedChar? (rest : List Char) : Option (List Char × ℕ) :=
  let body := rest.takeWhile (· != '\x7d')
  match numberedChar? 16 1 body.length body with
  | some (x, count) =>
    if count = body.length && rest.contains '\x7d' then some ([x], count + 3) else none
  | none => none

/-- **What an escape stands for**, and how many characters it takes behind its backslash. -/
def Dialect.readEscape (d : Dialect) : List Char → Option (List Char × ℕ)
  | [] => none
  | c :: rest =>
    match d.letterEscapes.lookup c, d.hexEscapes.lookup c with
    | some x, _ => some ([x], 1)
    | none, some (least, most) =>
      if d = .javaScript && c = 'u' && rest.head? == some '\x7b' then bracedChar? rest.tail
      else (numberedChar? 16 least most rest).map fun x => ([x.1], x.2 + 1)
    | none, none => d.otherEscape c rest

/-! ### Literals -/

/-- **Reads a literal** from behind its opening quote: its value, and what follows the first quote
that is not escaped. -/
def Dialect.readBody (d : Dialect) : List Char → Option (List Char × List Char)
  | [] => none
  | c :: rest =>
    if c = d.quoteMark then some ([], rest)
    else if c = '\\' then
      match d.readEscape rest with
      | none => none
      | some (value, count) => (d.readBody (rest.drop count)).map fun r => (value ++ r.1, r.2)
    else if d.lineEnds.contains c then none
    else (d.readBody rest).map fun r => (c :: r.1, r.2)
termination_by text => text.length

/-- **Replaces the Unicode escapes** of a text: a backslash in front of one or more `u` and four
digits, if the number of backslashes right in front of it is even. What comes out of an escape is no
part of another one. -/
def translateFrom (even : Bool) : List Char → Option (List Char)
  | [] => some []
  | c :: rest =>
    if c = '\\' && even && rest.head? == some 'u' then
      let marks := (rest.takeWhile (· == 'u')).length
      match numberedChar? 16 4 4 (rest.drop marks) with
      | none => none
      | some (x, _) => (translateFrom true (rest.drop (marks + 4))).map (x :: ·)
    else (translateFrom (c != '\\' || !even) rest).map (c :: ·)
termination_by text => text.length

/-- A text as it is looked at for literals. -/
def Dialect.translate : Dialect → List Char → Option (List Char)
  | .java, text => translateFrom true text
  | _, text => some text

/-- Whether three quotes open a literal of another kind, which may have several lines. -/
def Dialect.hasLongLiterals : Dialect → Bool
  | .javaScript => false
  | .python | .java | .csharp => true

/-- Reads the literal at the front of a text that has been translated. -/
def Dialect.readTranslated (d : Dialect) : List Char → Option (List Char × List Char)
  | [] => none
  | c :: rest =>
    if c ≠ d.quoteMark || d.hasLongLiterals && rest.take 2 == [c, c] then none else d.readBody rest

/-- **Reads the literal at the front of a text**: its value, and what follows it. -/
def Dialect.readLiteral (d : Dialect) (text : List Char) : Option (List Char × List Char) :=
  (d.translate text).bind d.readTranslated

example : Dialect.javaScript.readLiteral "'\\u\x7b1F600\x7d\\x41'.".toList =
    some ("😀A".toList, ['.']) := by
  cbv

example : Dialect.java.readLiteral "\"\\u0041\\\\u0041\\1011\\u0022".toList =
    some ("A\\u0041A1".toList, []) := by
  cbv

end Scribe.Text
