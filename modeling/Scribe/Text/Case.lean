import Scribe.Text.CaseTable

/-!
# Letter case

Lower, upper and title case of a text by the full mappings of Unicode: one character may become
several, and the capital sigma becomes `ς` at the end of a word and `σ` elsewhere, which is the
only mapping that looks at its neighbours.

* `Scribe.Text.lower`, `Scribe.Text.upper` – a whole text;
* `Scribe.Text.capitalize` – the first character in title case, the others in lower case.
-/

namespace Scribe.Text

/-- The image of a code point under the first run that holds it, or the code point itself. -/
def applyRuns (runs : List CaseRun) (n : Nat) : Nat :=
  match runs.find? (·.contains n) with
  | some r => (Int.ofNat n + r.shift).toNat
  | none => n

/-- The image of a character under expansions and, failing these, runs. -/
def mapCase (expansions : List (Nat × List Nat)) (runs : List CaseRun) (c : Char) : List Char :=
  match expansions.lookup c.toNat with
  | some image => image.map Char.ofNat
  | none => [Char.ofNat (applyRuns runs c.toNat)]

/-- The lower case of one character, out of context. -/
def lowerChar (c : Char) : List Char :=
  if c.toNat < 0x80 then [c.toLower] else mapCase lowerExpansions lowerRuns c

/-- The upper case of one character. -/
def upperChar (c : Char) : List Char :=
  if c.toNat < 0x80 then [c.toUpper] else mapCase upperExpansions upperRuns c

/-- The title case of one character. -/
def titleChar (c : Char) : List Char :=
  match titleExceptions.lookup c.toNat with
  | some image => image.map Char.ofNat
  | none => upperChar c

/-- Whether a range of the list holds the code point. -/
def inRanges (ranges : List (Nat × Nat)) (n : Nat) : Bool :=
  ranges.any fun r => r.1 ≤ n && n ≤ r.2

/-- Characters that case mapping looks through when it asks where a word ends. -/
def isCaseIgnorable (c : Char) : Bool :=
  inRanges caseIgnorableRanges c.toNat

/-- Characters that carry case and are not looked through. -/
def isCased (c : Char) : Bool :=
  inRanges casedRanges c.toNat

/-- Whether the first character that is not looked through carries case. -/
def facesCased (s : List Char) : Bool :=
  match s.dropWhile isCaseIgnorable with
  | [] => false
  | c :: _ => isCased c

/-- **Lower case in context.** `before` holds the characters already passed, the nearest first; a
capital sigma is final when a cased character comes before it and none comes after it. -/
def lowerFrom (before : List Char) : List Char → List Char
  | [] => []
  | c :: rest =>
    let image :=
      if c == 'Σ' then [if facesCased before && !facesCased rest then 'ς' else 'σ']
      else lowerChar c
    image ++ lowerFrom (c :: before) rest

/-- The lower case of a text. -/
def lower (s : List Char) : List Char :=
  lowerFrom [] s

/-- The upper case of a text. -/
def upper (s : List Char) : List Char :=
  s.flatMap upperChar

/-- **Capitalized**: the first character in title case, the others in lower case. -/
def capitalize : List Char → List Char
  | [] => []
  | c :: rest => titleChar c ++ lowerFrom [c] rest

/-- The lower case of a string. -/
def lowered (s : String) : String :=
  String.ofList (lower s.toList)

/-- The upper case of a string. -/
def uppered (s : String) : String :=
  String.ofList (upper s.toList)

/-- The capitalized form of a string. -/
def capitalized (s : String) : String :=
  String.ofList (capitalize s.toList)

end Scribe.Text
