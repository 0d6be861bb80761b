import Scribe.Text.Numeral

/-!
# Decimal fractions and binary floating point

A **decimal** is a mantissa and a power of ten. `Scribe.Text.Decimal.toFloat` is the nearest double
of a decimal, `Scribe.Text.Decimal.ofFloat?` the decimal with the fewest digits that reads back as
a given double, the nearest to it where there are several, and `Scribe.Text.timeText` writes it:
positionally for magnitudes from 10⁻⁴ to below 10¹⁶, and with an exponent beyond.
-/

namespace Scribe.Text

/-- **A decimal fraction**, `mantissa * 10 ^ exponent`. -/
structure Decimal where
  /-- The digits, as a natural number. -/
  mantissa : Nat
  /-- The power of ten. -/
  exponent : Int
  deriving Repr, DecidableEq

/-- The double that is infinite. -/
def infinity : Float := 1.0 / 0.0

/-- The double that is not a number. -/
def notANumber : Float := 0.0 / 0.0

/-- The double nearest to a decimal. Magnitudes far beyond the range of doubles are settled by
their exponent alone. -/
def Decimal.toFloat (d : Decimal) : Float :=
  let top := (natText d.mantissa).length + d.exponent
  if d.mantissa == 0 then 0.0
  else if top > 400 then infinity
  else if top < -400 then 0.0
  else if d.exponent < 0 then Float.ofScientific d.mantissa true d.exponent.natAbs
  else Float.ofScientific d.mantissa false d.exponent.natAbs

/-- The digits at the front of a text and what follows them. -/
def spanDigits (s : List Char) : List Char × List Char :=
  (s.takeWhile Char.isDigit, s.dropWhile Char.isDigit)

/-- The number that ASCII digits denote. -/
def asciiNat (digits : List Char) : Nat :=
  ofDigits 10 (digits.map fun c => c.toNat - '0'.toNat)

/-- **Reads an exponent**: nothing, or a letter `e`, a sign and digits, up to the end. -/
def readExponent? : List Char → Option Int
  | [] => some 0
  | c :: rest =>
    if c == 'e' || c == 'E' then
      let (negative, digits) := splitSign rest
      if !digits.isEmpty && digits.all Char.isDigit then
        some (signedInt negative (asciiNat digits))
      else none
    else none

/-- **Reads a decimal** without a sign: digits around a point, at least one of them, and an
exponent. -/
def Decimal.read? (s : List Char) : Option Decimal :=
  let (whole, rest) := spanDigits s
  let (fraction, rest) :=
    match rest with
    | '.' :: rest => spanDigits rest
    | rest => ([], rest)
  if whole.isEmpty && fraction.isEmpty then none
  else
    (readExponent? rest).map fun e => ⟨asciiNat (whole ++ fraction), e - fraction.length⟩

/-- The double that a signed decimal, `inf`, `infinity` or `nan` in any case denotes. -/
def readFloat? (s : List Char) : Option Float :=
  let (negative, body) := splitSign s
  let word := body.map Char.toLower
  let magnitude :=
    if word == ['i', 'n', 'f'] || word == ['i', 'n', 'f', 'i', 'n', 'i', 't', 'y'] then
      some infinity
    else if word == ['n', 'a', 'n'] then some notANumber
    else (Decimal.read? body).map Decimal.toFloat
  magnitude.map fun x => if negative then -x else x

/-- The text without its underscores, provided that it has some, none at either end and no two
together. -/
def dropUnderscores? (s : List Char) : Option (List Char) :=
  if s.head? == some '_' || s.getLast? == some '_' || !s.contains '_' || occursIn ['_', '_'] s then
    none
  else some (s.filter (· != '_'))

/-- **Reads a double leniently**: white space around it, or else single underscores within it. -/
def readLenientFloat? (s : List Char) : Option Float :=
  match readFloat? (trim isWhiteSpace s) with
  | some x => some x
  | none => (dropUnderscores? s).bind readFloat?

/-! ### The fewest digits that read back -/

/-- A finite double as a natural number times a power of two. -/
def binaryParts (x : Float) : Nat × Int :=
  let bits := x.toBits.toNat
  let fraction := bits % Nat.pow 2 52
  let biased := bits / Nat.pow 2 52 % Nat.pow 2 11
  if biased == 0 then (fraction, -1074) else (Nat.pow 2 52 + fraction, Int.ofNat biased - 1075)

/-- The number of decimal digits in front of the point of `num / den`, at least as large. -/
def leadingPlace (num den : Nat) : Int :=
  let guess : Int := (natText num).length - (natText den).length
  let atLeast (place : Int) : Bool :=
    let scale := Nat.pow 10 place.natAbs
    if place ≥ 0 then num ≥ den * scale else num * scale ≥ den
  if atLeast guess then guess + 1 else guess

/-- The decimal of `count` digits nearest to `num / den` among those for which `within` holds of
the numerator over the denominator that `scale` gives. -/
def nearestWithin (num den : Nat) (place : Int) (count : Nat) (within : Nat → Nat → Bool) :
    Option Decimal :=
  let exponent : Int := place - count
  let scale := Nat.pow 10 exponent.natAbs
  let n := if exponent < 0 then num * scale else num
  let d := if exponent < 0 then den else den * scale
  let below := n / d
  let candidate (m : Nat) : Option Nat :=
    let value := if exponent < 0 then (m, scale) else (m * scale, 1)
    if m != 0 && within value.1 value.2 then some m else none
  let best :=
    match candidate below, candidate (below + 1) with
    | some a, some b =>
      let low := n - a * d
      let high := b * d - n
      if low < high || (low == high && a % 2 == 0) then some a else some b
    | some a, none => some a
    | none, b => b
  best.map fun m => ⟨m, exponent⟩

/-- **The shortest decimal** of a finite double other than zero, its sign aside. -/
def Decimal.ofFloat? (x : Float) : Option Decimal :=
  let (m, q) := binaryParts x
  let even := m % 2 == 0
  -- the double and the two ends of its rounding interval over one denominator
  let unit := if q < 2 then Nat.pow 2 (2 - q).natAbs else 1
  let num := if q < 2 then 4 * m else m * Nat.pow 2 q.natAbs
  let half := if q < 2 then 2 else Nat.pow 2 (q - 1).natAbs
  let lowerHalf := if m == Nat.pow 2 52 && q > -1074 then half / 2 else half
  let within (a b : Nat) : Bool :=
    -- a / b lies between (num - lowerHalf) / unit and (num + half) / unit
    let left := (num - lowerHalf) * b
    let right := (num + half) * b
    let mid := a * unit
    if even then left ≤ mid && mid ≤ right else left < mid && mid < right
  if m == 0 then none
  else
    let place := leadingPlace num unit
    (List.range 17).findSome? fun k => nearestWithin num unit place (k + 1) within

/-- The mantissa without the zeros at its end, which go to the exponent. -/
def Decimal.normalize (d : Decimal) : List Char × Int :=
  let digits := natText d.mantissa
  let kept := (digits.reverse.dropWhile (· == '0')).reverse
  (kept, d.exponent + digits.length)

/-- An exponent with its sign and at least two digits. -/
def exponentText (e : Int) : List Char :=
  let digits := natText e.natAbs
  (if e < 0 then ['e', '-'] else ['e', '+']) ++
    (if digits.length < 2 then '0' :: digits else digits)

/-- The text of `0.digits * 10 ^ point`. -/
def placedText (digits : List Char) (point : Int) : List Char :=
  if point > 16 || point ≤ -4 then
    match digits with
    | [] => ['0', '.', '0']
    | [d] => d :: exponentText (point - 1)
    | d :: rest => d :: '.' :: rest ++ exponentText (point - 1)
  else if point ≤ 0 then
    ['0', '.'] ++ List.replicate point.natAbs '0' ++ digits
  else
    let n := point.natAbs
    if digits.length ≤ n then digits ++ List.replicate (n - digits.length) '0' ++ ['.', '0']
    else digits.take n ++ ['.'] ++ digits.drop n

/-- **The text of a time**: the fewest digits that read back, at least one of them after the point
where it is written positionally. -/
def timeText (x : Float) : List Char :=
  if x.isNaN then ['n', 'a', 'n']
  else
    let sign := if x.toBits.toNat ≥ Nat.pow 2 63 then ['-'] else []
    if x.isInf then sign ++ ['i', 'n', 'f']
    else
      match Decimal.ofFloat? x with
      | none => sign ++ ['0', '.', '0']
      | some d =>
        let (digits, point) := d.normalize
        sign ++ placedText digits point

end Scribe.Text
