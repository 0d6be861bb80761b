import Scribe.Text.Numeral

/-!
# String literals

A text as a string literal of a generated program. The four languages agree on the escapes of the
backslash, the line feed, the carriage return, the tab and the quote itself; they differ in the
quote and in the way they write the remaining control characters and the two Unicode line
separators.

* `Scribe.Text.Dialect` – the languages, as far as literals go;
* `Scribe.Text.quote` – a text between quotes.
-/

namespace Scribe.Text

/-- **The dialects** of string literals. -/
inductive Dialect where
  | javaScript
  | python
  | csharp
  | java
  deriving Repr, DecidableEq

/-- The quote that opens and closes a literal. -/
def Dialect.quoteMark : Dialect → Char
  | .javaScript => '\''
  | _ => '"'

/-- The lower-case hexadecimal digit of a number below sixteen. -/
def hexDigit (n : Nat) : Char :=
  Nat.digitChar n

/-- The lowest `count` digits of a number in a base, the highest first. -/
def fixedDigits (base : Nat) : Nat → Nat → List Char
  | 0, _ => []
  | count + 1, n => fixedDigits base count (n / base) ++ [hexDigit (n % base)]

/-- A control character, or one of the two line separators, as its dialect writes it. Octal escapes
reach only code points below 256, and a literal of that dialect may hold the separators as they
are. -/
def Dialect.escapeControl (d : Dialect) (c : Char) : List Char :=
  match d with
  | .java => if c.toNat > 0xFF then [c] else '\\' :: fixedDigits 8 3 c.toNat
  | _ => '\\' :: 'u' :: fixedDigits 16 4 c.toNat

/-- Control characters and the two Unicode line separators. -/
def needsEscape (c : Char) : Bool :=
  c.toNat < 0x20 || c.toNat == 0x7F || c.toNat == 0x2028 || c.toNat == 0x2029

/-- One character inside a literal. -/
def Dialect.escape (d : Dialect) (c : Char) : List Char :=
  if c == '\\' then ['\\', '\\']
  else if c == '\n' then ['\\', 'n']
  else if c == '\r' then ['\\', 'r']
  else if c == '\t' then ['\\', 't']
  else if c == d.quoteMark then ['\\', d.quoteMark]
  else if needsEscape c then d.escapeControl c
  else [c]

/-- **The literal** of a text. -/
def quote (d : Dialect) (s : List Char) : List Char :=
  d.quoteMark :: s.flatMap d.escape ++ [d.quoteMark]

/-- The literal of a string. -/
def quoted (d : Dialect) (s : String) : String :=
  String.ofList (quote d s.toList)

end Scribe.Text
