import Scribe.Text.Blank
import Scribe.Text.CaseTable

/-!
# Numerals

Reading an integer from a text. The digits may stand in groups with one underscore between two
digits; white space may surround the numeral, and a sign may precede it.

* `Scribe.Text.readInt?` – an integer whose digits may belong to any decimal number system;
* `Scribe.Text.readLenientInt?` – an integer in ASCII digits, which a point and zeros may follow;
* `Scribe.Text.natText`, `Scribe.Text.intText` – the way back.

A numeral of more than `Scribe.Text.maxDigits` digits is refused.
-/

namespace Scribe.Text

/-- The longest numeral that is read. -/
def maxDigits : Nat := 4300

/-- The value of a decimal digit of any number system. -/
def digitValue? (c : Char) : Option Nat :=
  (digitZeros.find? fun z => z ≤ c.toNat && c.toNat ≤ z + 9).map fun z => c.toNat - z

/-- The value of an ASCII digit. -/
def asciiDigit? (c : Char) : Option Nat :=
  if '0' ≤ c ∧ c ≤ '9' then some (c.toNat - '0'.toNat) else none

/-- The number that a list of digits denotes in a base. -/
def ofDigits (base : Nat) (digits : List Nat) : Nat :=
  digits.foldl (fun n d => base * n + d) 0

/-- The digits that follow a digit, an underscore between two of them being passed over. -/
def digitsAfter (digit? : Char → Option Nat) : List Char → Option (List Nat)
  | [] => some []
  | '_' :: c :: rest =>
    match digit? c with
    | some d => (digitsAfter digit? rest).map (d :: ·)
    | none => none
  | c :: rest =>
    match digit? c with
    | some d => (digitsAfter digit? rest).map (d :: ·)
    | none => none

/-- **Grouped digits**: at least one digit, with at most one underscore between two digits. -/
def groupedDigits? (digit? : Char → Option Nat) : List Char → Option (List Nat)
  | [] => none
  | c :: rest =>
    match digit? c with
    | some d => (digitsAfter digit? rest).map (d :: ·)
    | none => none

/-- The sign at the front of a numeral and what follows it. -/
def splitSign : List Char → Bool × List Char
  | '-' :: rest => (true, rest)
  | '+' :: rest => (false, rest)
  | rest => (false, rest)

/-- The integer with a sign and an absolute value. -/
def signedInt (negative : Bool) (n : Nat) : Int :=
  if negative then -Int.ofNat n else Int.ofNat n

/-- **Reads an integer**: white space around it, a sign, grouped digits of any number system. -/
def readInt? (s : List Char) : Option Int :=
  let (negative, body) := splitSign (trim isWhiteSpace s)
  match groupedDigits? digitValue? body with
  | some digits =>
    if digits.length ≤ maxDigits then some (signedInt negative (ofDigits 10 digits)) else none
  | none => none

/-- What stands before a point that only zeros follow, or the whole numeral. -/
def dropZeroFraction (s : List Char) : List Char :=
  match s.dropWhile (· != '.') with
  | '.' :: zeros => if zeros.all (· == '0') then s.takeWhile (· != '.') else s
  | _ => s

/-- **Reads an integer leniently**: ASCII digits only, and a point followed by zeros is passed
over. -/
def readLenientInt? (s : List Char) : Option Int :=
  let (negative, body) := splitSign (dropZeroFraction (trim isWhiteSpace s))
  (groupedDigits? asciiDigit? body).map fun digits => signedInt negative (ofDigits 10 digits)

/-- The ASCII digits of a natural number. -/
def natText (n : Nat) : List Char :=
  Nat.toDigits 10 n

/-- The ASCII digits of an integer, with a minus sign in front of a negative one. -/
def intText : Int → List Char
  | .ofNat n => natText n
  | .negSucc n => '-' :: natText (n + 1)

end Scribe.Text
