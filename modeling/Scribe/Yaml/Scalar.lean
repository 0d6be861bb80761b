import Scribe.Text.Decimal
import Scribe.Yaml.Fault

/-!
# What a scalar stands for

A plain scalar without a tag stands for a null, a boolean, a number or a date if it is written as
one, by the rules of version 1.2; otherwise it is a string. `Scribe.Yaml.Kind.ofPlain` tells which.
A scalar with a tag is read as what its tag says.

* `Scribe.Yaml.Kind` – the types of nodes;
* `Scribe.Yaml.integer`, `Scribe.Yaml.number`, `Scribe.Yaml.checkDate`, … – the values.
-/

namespace Scribe.Yaml

/-- **The types of nodes.** -/
inductive Kind where
  | null
  | truth
  | integer
  | number
  | date
  | string
  | bytes
  | list
  | map
  | set
  | orderedMap
  | pairs
  /-- The key under which other maps are merged in. -/
  | merge
  /-- The key of the value that a map stands for. -/
  | default
  deriving Repr, DecidableEq

/-- The types and the last words of their tags. -/
def Kind.words : List (String × Kind) :=
  [("null", .null), ("bool", .truth), ("int", .integer), ("float", .number), ("timestamp", .date),
    ("str", .string), ("binary", .bytes), ("seq", .list), ("map", .map), ("set", .set),
    ("omap", .orderedMap), ("pairs", .pairs), ("merge", .merge), ("value", .default)]

/-- The type that a tag names. -/
def Kind.ofTag? (tag : String) : Option Kind :=
  (words.find? fun w => "tag:yaml.org,2002:" ++ w.1 == tag).map (·.2)

/-! ### How plain scalars are written -/

/-- A digit or an underscore. -/
def isGroupChar (c : Char) : Bool :=
  c.isDigit || c == '_'

/-- A text without a sign at its front. -/
def unsigned (s : List Char) : List Char :=
  (Text.splitSign s).2

/-- Whether a text has some characters, all of a class. -/
def allOf (p : Char → Bool) (s : List Char) : Bool :=
  !s.isEmpty && s.all p

/-- Whether a text is an exponent with digits; `signed` tells whether it must have a sign. -/
def isExponent (signed : Bool) : List Char → Bool
  | c :: rest =>
    (c == 'e' || c == 'E') && allOf Char.isDigit (unsigned rest) &&
      (!signed || rest.head? == some '+' || rest.head? == some '-')
  | [] => false

/-- Whether a text is one of the words for infinity, after its point. -/
def isInfinityWord (s : List Char) : Bool :=
  s == ['i', 'n', 'f'] || s == ['I', 'n', 'f'] || s == ['I', 'N', 'F']

/-- Whether a text is one of the words for what is no number, after its point. -/
def isNaNWord (s : List Char) : Bool :=
  s == ['n', 'a', 'n'] || s == ['N', 'a', 'N'] || s == ['N', 'A', 'N']

/-- **Floating point**: digits with a point or an exponent, or a word after a point. A text that
starts with its point needs a sign in its exponent. -/
def isNumber (s : List Char) : Bool :=
  match unsigned s with
  | '.' :: rest =>
    let fraction := rest.takeWhile isGroupChar
    let tail := rest.dropWhile isGroupChar
    isInfinityWord rest || (isNaNWord rest && s.head? == some '.') ||
      (!fraction.isEmpty && (tail.isEmpty || isExponent true tail))
  | c :: rest =>
    c.isDigit &&
      match rest.dropWhile isGroupChar with
      | '.' :: rest =>
        let tail := rest.dropWhile isGroupChar
        tail.isEmpty || isExponent false tail
      | tail => isExponent false tail
  | [] => false

/-- **Integers**: digits, binary after `0b`, octal after `0o`, hexadecimal after `0x`. The first
character is a sign or a digit. -/
def isInteger (s : List Char) : Bool :=
  s.head?.elim false (fun c => c.isDigit || c == '-' || c == '+') &&
    match unsigned s with
    | '0' :: 'b' :: rest => allOf (fun c => c == '0' || c == '1' || c == '_') rest
    | '0' :: 'o' :: rest => allOf (fun c => ('0' ≤ c && c ≤ '7') || c == '_') rest
    | '0' :: 'x' :: rest =>
      allOf (fun c => isGroupChar c || ('a' ≤ c && c ≤ 'f') || ('A' ≤ c && c ≤ 'F')) rest
    | rest => allOf isGroupChar rest

/-! ### Dates -/

/-- **The parts of a date**: year, month, day, and the time of day. -/
structure DateParts where
  year : Nat
  month : Nat
  day : Nat
  /-- Hour, minute and second, if they are told. -/
  time : Option (Nat × Nat × Nat) := none
  deriving Repr, DecidableEq

/-- At most `most` digits at the front of a text, at least `least` of them. -/
def digitsBetween (least most : Nat) (s : List Char) : Option (Nat × List Char) :=
  let digits := (s.take most).takeWhile Char.isDigit
  if digits.length < least then none else some (Text.asciiNat digits, s.drop digits.length)

/-- The text after a character that must come. -/
def after? (c : Char) : List Char → Option (List Char)
  | x :: rest => if x == c then some rest else none
  | [] => none

/-- Whether a text is a time zone: `Z`, or a sign, hours, and perhaps minutes. -/
def isZone : List Char → Bool
  | ['Z'] => true
  | c :: rest =>
    (c == '+' || c == '-') &&
      match digitsBetween 1 2 rest with
      | some (_, []) => true
      | some (_, ':' :: rest) => rest.length == 2 && rest.all Char.isDigit
      | _ => false
  | [] => false

/-- Whether a text is what may follow the seconds: a fraction, blanks and a time zone. -/
def isTimeTail (s : List Char) : Bool :=
  let s := match s with
    | '.' :: rest => rest.dropWhile Char.isDigit
    | s => s
  s.isEmpty || isZone (s.dropWhile fun c => c == ' ' || c == '\t')

/-- A time of day, up to the end of the text. -/
def timeParts? (s : List Char) : Option (Nat × Nat × Nat) := do
  let (hour, s) ← digitsBetween 1 2 s
  let (minute, s) ← digitsBetween 2 2 (← after? ':' s)
  let (second, s) ← digitsBetween 2 2 (← after? ':' s)
  if isTimeTail s then some (hour, minute, second) else none

/-- **The parts of a date** that a text is: a day with two digits for month and day, or a day with a
time after a `T` or after blanks. -/
def dateParts? (s : List Char) : Option DateParts := do
  let (year, s) ← digitsBetween 4 4 s
  let s ← after? '-' s
  let (month, rest) ← digitsBetween 1 2 s
  let monthDigits := s.length - rest.length
  let s ← after? '-' rest
  let (day, rest) ← digitsBetween 1 2 s
  let dayDigits := s.length - rest.length
  match rest with
  | [] => if monthDigits == 2 && dayDigits == 2 then some ⟨year, month, day, none⟩ else none
  | c :: tail =>
    if c == 'T' || c == 't' then
      (timeParts? tail).map fun t => ⟨year, month, day, some t⟩
    else if c == ' ' || c == '\t' then
      (timeParts? (tail.dropWhile fun c => c == ' ' || c == '\t')).map fun t =>
        ⟨year, month, day, some t⟩
    else none

/-- Whether a year has a twenty-ninth of February. -/
def isLeapYear (year : Nat) : Bool :=
  year % 4 == 0 && (year % 100 != 0 || year % 400 == 0)

/-- The number of days of a month. -/
def daysOfMonth (year month : Nat) : Nat :=
  if month == 2 then (if isLeapYear year then 29 else 28)
  else if month == 4 || month == 6 || month == 9 || month == 11 then 30
  else 31

/-- The first part of a date that is in no calendar, in words. -/
def DateParts.fault? (d : DateParts) : Option String :=
  if d.year == 0 then some "year 0 is out of range"
  else if d.month == 0 || 12 < d.month then some "month must be in 1..12"
  else if d.day == 0 || daysOfMonth d.year d.month < d.day then
    some "day is out of range for month"
  else
    match d.time with
    | none => none
    | some (hour, minute, second) =>
      if 23 < hour then some "hour must be in 0..23"
      else if 59 < minute then some "minute must be in 0..59"
      else if 59 < second then some "second must be in 0..59"
      else none

/-! ### Types -/

/-- **The type of a plain scalar** without a tag. -/
def Kind.ofPlain (s : List Char) : Kind :=
  let word := String.ofList s
  if word == "true" || word == "True" || word == "TRUE" || word == "false" || word == "False" ||
      word == "FALSE" then .truth
  else if isNumber s then .number
  else if isInteger s then .integer
  else if word == "<<" then .merge
  else if word == "" || word == "~" || word == "null" || word == "Null" || word == "NULL" then .null
  else if (dateParts? s).isSome then .date
  else if word == "=" then .default
  else .string

/-! ### Values -/

/-- The words for true and false. -/
def truthWords : List (String × Bool) :=
  [("yes", true), ("no", false), ("y", true), ("n", false), ("true", true), ("false", false),
    ("on", true), ("off", false)]

/-- The boolean that a text stands for. -/
def truth (s : String) : Except Fault Bool :=
  match truthWords.lookup s.toLower with
  | some b => .ok b
  | none => .error (.unreadable (.truth s.toLower))

/-- The value of a digit in bases up to sixteen. -/
def digitIn? (base : Nat) (c : Char) : Option Nat :=
  let n :=
    if c.isDigit then c.toNat - 48
    else if 'a' ≤ c && c ≤ 'f' then c.toNat - 87
    else if 'A' ≤ c && c ≤ 'F' then c.toNat - 55
    else 16
  if n < base then some n else none

/-- The number that digits of a base denote. -/
def numberIn (base : Nat) (digits : List Char) : Except Fault Nat :=
  match digits.mapM (digitIn? base) with
  | some (d :: ds) => .ok (Text.ofDigits base (d :: ds))
  | _ => .error (.unreadable (.integer base (String.ofList digits)))

/-- **The integer** that a text stands for, its underscores aside. -/
def integer (s : List Char) : Except Fault Int :=
  let s := s.filter (· != '_')
  let (negative, body) := Text.splitSign s
  let magnitude :=
    match body with
    | '0' :: 'b' :: rest => numberIn 2 rest
    | '0' :: 'o' :: rest => numberIn 8 rest
    | '0' :: 'x' :: rest => numberIn 16 rest
    | _ => numberIn 10 body
  if s.isEmpty then .error (.unreadable .nothing)
  else magnitude.map (Text.signedInt negative)

/-- **The double** that a text stands for, its underscores aside. -/
def number (s : List Char) : Except Fault Float :=
  let s := (s.filter (· != '_')).map Char.toLower
  let (negative, body) := Text.splitSign s
  let magnitude :=
    if body == ['.', 'i', 'n', 'f'] then some Text.infinity
    else if body == ['.', 'n', 'a', 'n'] then some Text.notANumber
    else Text.readFloat? body
  if s.isEmpty then .error (.unreadable .nothing)
  else
    match magnitude with
    | some x => .ok (if negative then -x else x)
    | none => .error (.unreadable (.number (String.ofList body)))

/-- Checks that a text is a date of the calendar. -/
def checkDate (s : List Char) : Except Fault Unit :=
  match dateParts? s with
  | none => .error (.malformed .wrongShape)
  | some d =>
    match d.fault? with
    | some part => .error (.unreadable (.date part))
    | none => .ok ()

/-- The value of a character in base sixty-four. -/
def base64Digit? (c : Char) : Option Nat :=
  if c.isUpper then some (c.toNat - 65)
  else if c.isLower then some (c.toNat - 71)
  else if c.isDigit then some (c.toNat + 4)
  else if c == '+' then some 62
  else if c == '/' then some 63
  else none

/-- The bytes of digits in base sixty-four, four of them for three bytes; one alone stands for
nothing. -/
def base64Bytes? : List Nat → Option (List UInt8)
  | a :: b :: c :: d :: rest =>
    (base64Bytes? rest).map fun bytes =>
      let n := ((a * 64 + b) * 64 + c) * 64 + d
      UInt8.ofNat (n / 65536) :: UInt8.ofNat (n / 256 % 256) :: UInt8.ofNat (n % 256) :: bytes
  | [a, b, c] =>
    let n := ((a * 64 + b) * 64 + c) / 4
    some [UInt8.ofNat (n / 256), UInt8.ofNat (n % 256)]
  | [a, b] => some [UInt8.ofNat ((a * 64 + b) / 16)]
  | [_] => none
  | [] => some []

/-- **The bytes** that a text stands for; characters other than digits are passed over, and the text
is filled up with equals signs. -/
def bytes (s : List Char) : Except Fault (List UInt8) :=
  let digits := (s.takeWhile (· != '=')).filterMap base64Digit?
  let filling := ((s.dropWhile (· != '=')).filter (· == '=')).length
  let missing := (4 - digits.length % 4) % 4
  match base64Bytes? digits with
  | some found => if missing ≤ filling then .ok found else .error (.malformed .wrongShape)
  | none => .error (.malformed .wrongShape)

end Scribe.Yaml
