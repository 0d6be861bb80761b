import Scribe.Text.Decimal
import Scribe.Text.Quoted
import Scribe.Value

/-!
# Values as JSON

**The JSON text of a value**, on one line, and the way back. A double that is no number is written
as a string, and a key that is no string as the string of its JSON text. The entries of an object
keep their order; where a key comes twice, the entry stays in the first place and takes the later
value.

* `Scribe.Value.toJson` – the text of a value;
* `Scribe.Value.ofJson?` – the value of a text.
-/

namespace Scribe.Value

/-! ### Writing -/

/-- A character inside a JSON string. -/
def escapeJson (c : Char) : List Char :=
  if c == '"' then ['\\', '"']
  else if c == '\\' then ['\\', '\\']
  else if c == '\n' then ['\\', 'n']
  else if c.toNat < 0x20 || c.toNat == 0x7F then '\\' :: 'u' :: Text.fixedDigits 16 4 c.toNat
  else [c]

/-- A JSON string. -/
def quoteJson (s : String) : String :=
  String.ofList ('"' :: (s.toList.flatMap escapeJson ++ ['"']))

/-- A double as JSON. -/
def floatJson (x : Float) : String :=
  let text := String.ofList (Text.timeText x)
  if x.isNaN || x.isInf then quoteJson text else text

mutual

/-- **The JSON text** of a value. -/
def toJson : Value → String
  | null => "null"
  | bool b => if b then "true" else "false"
  | int n => String.ofList (Text.intText n)
  | float x => floatJson x
  | str s => quoteJson s
  | list items => "[" ++ ",".intercalate (itemsJson items) ++ "]"
  | map entries => "\x7b" ++ ",".intercalate (entriesJson entries) ++ "\x7d"
  | date text => quoteJson text
  | bytes _ => "null"

/-- The texts of the items of a list. -/
def itemsJson : List Value → List String
  | [] => []
  | v :: rest => toJson v :: itemsJson rest

/-- The texts of the entries of a map. -/
def entriesJson : List (Value × Value) → List String
  | [] => []
  | (.str s, v) :: rest => (quoteJson s ++ ":" ++ toJson v) :: entriesJson rest
  | (k, v) :: rest => (quoteJson (toJson k) ++ ":" ++ toJson v) :: entriesJson rest

end

/-! ### Reading -/

/-- White space of JSON. -/
def isJsonSpace (c : Char) : Bool :=
  c == ' ' || c == '\t' || c == '\n' || c == '\r'

/-- The text after white space. -/
def skipSpace (s : List Char) : List Char :=
  s.dropWhile isJsonSpace

/-- The value of a hexadecimal digit. -/
def hexDigitValue (c : Char) : Nat :=
  if c.isDigit then c.toNat - 48 else if c.isUpper then c.toNat - 55 else c.toNat - 87

/-- The value of hexadecimal digits. -/
def hexValue (digits : List Char) : Nat :=
  digits.foldl (fun n c => 16 * n + hexDigitValue c) 0

/-- The character of a high and a low surrogate. -/
def ofSurrogates (high low : Nat) : Char :=
  Char.ofNat (0x10000 + (high - 0xD800) * 0x400 + (low - 0xDC00))

/-- The character that a letter after a backslash stands for. -/
def unescapeJson (c : Char) : Char :=
  if c == 'n' then '\n' else if c == 't' then '\t' else if c == 'r' then '\r'
  else if c == 'b' then Char.ofNat 8 else if c == 'f' then Char.ofNat 12 else c

/-- The characters of a JSON string whose opening quote has been read, last one first, and what
follows it. -/
def readJsonString (read : List Char) : List Char → Option (List Char × List Char)
  | '"' :: rest => some (read, rest)
  | '\\' :: 'u' :: a :: b :: c :: d :: rest =>
    let n := hexValue [a, b, c, d]
    if 0xD800 ≤ n && n < 0xDC00 then
      match rest with
      | '\\' :: 'u' :: e :: f :: g :: h :: rest =>
        readJsonString (ofSurrogates n (hexValue [e, f, g, h]) :: read) rest
      | _ => none
    else readJsonString (Char.ofNat n :: read) rest
  | '\\' :: c :: rest => readJsonString (unescapeJson c :: read) rest
  | c :: rest => readJsonString (c :: read) rest
  | [] => none

/-- The characters of a number. -/
def isNumberChar (c : Char) : Bool :=
  c.isDigit || c == '-' || c == '+' || c == '.' || c == 'e' || c == 'E'

/-- A number: an integer unless it has a point or an exponent. -/
def readJsonNumber (s : List Char) : Option Value :=
  if s.any fun c => c == '.' || c == 'e' || c == 'E' then (Text.readFloat? s).map .float
  else
    let (negative, digits) := Text.splitSign s
    if digits.isEmpty then none else some (.int (Text.signedInt negative (Text.asciiNat digits)))

/-- The entries of a map with one more, the last value of a key being kept. -/
def putEntry (entries : List (Value × Value)) (k : String) (v : Value) : List (Value × Value) :=
  if entries.any (·.1.isStr k) then
    entries.map fun e => if e.1.isStr k then (.str k, v) else e
  else entries ++ [(.str k, v)]

mutual

/-- A JSON value at the front of a text, and what follows it, nested no deeper than the bound. -/
def readJson : Nat → List Char → Option (Value × List Char)
  | 0, _ => none
  | n + 1, s =>
    match skipSpace s with
    | '"' :: rest =>
      (readJsonString [] rest).map fun (cs, rest) => (.str (String.ofList cs.reverse), rest)
    | '[' :: rest =>
      match skipSpace rest with
      | ']' :: rest => some (.list [], rest)
      | rest => readJsonItems n [] rest
    | '\x7b' :: rest =>
      match skipSpace rest with
      | '\x7d' :: rest => some (.map [], rest)
      | rest => readJsonEntries n [] rest
    | 't' :: 'r' :: 'u' :: 'e' :: rest => some (.bool true, rest)
    | 'f' :: 'a' :: 'l' :: 's' :: 'e' :: rest => some (.bool false, rest)
    | 'n' :: 'u' :: 'l' :: 'l' :: rest => some (.null, rest)
    | s => (readJsonNumber (s.takeWhile isNumberChar)).map fun v => (v, s.dropWhile isNumberChar)

/-- The items of a list after its opening bracket, those read so far being given, last one first. -/
def readJsonItems : Nat → List Value → List Char → Option (Value × List Char)
  | 0, _, _ => none
  | n + 1, read, s =>
    match readJson n s with
    | none => none
    | some (v, rest) =>
      match skipSpace rest with
      | ',' :: rest => readJsonItems n (v :: read) rest
      | ']' :: rest => some (.list (v :: read).reverse, rest)
      | _ => none

/-- The entries of an object after its opening brace, those read so far being given. -/
def readJsonEntries : Nat → List (Value × Value) → List Char → Option (Value × List Char)
  | 0, _, _ => none
  | n + 1, read, s =>
    match skipSpace s with
    | '"' :: rest =>
      match readJsonString [] rest with
      | none => none
      | some (k, rest) =>
        match skipSpace rest with
        | ':' :: rest =>
          match readJson n rest with
          | none => none
          | some (v, rest) =>
            let read := putEntry read (String.ofList k.reverse) v
            match skipSpace rest with
            | ',' :: rest => readJsonEntries n read rest
            | '\x7d' :: rest => some (.map read, rest)
            | _ => none
        | _ => none
    | _ => none

end

/-- **The value of a JSON text.** -/
def ofJson? (text : String) : Option Value :=
  let s := text.toList
  match readJson (s.length + 1) s with
  | some (v, rest) => if (skipSpace rest).isEmpty then some v else none
  | none => none

end Scribe.Value
