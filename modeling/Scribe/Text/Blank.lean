/-!
# Blank characters

Two classes of blank characters, and the operations that rest on them.

* `Scribe.Text.isWhiteSpace` – the Unicode property *White_Space*, by which numerals are trimmed;
* `Scribe.Text.isBlank` – the same with the four ASCII separators U+001C to U+001F, by which the
  texts of a page are compared: `Scribe.Text.squeeze` leaves one space between two words and none
  at either end.
-/

namespace Scribe.Text

/-- The characters of the Unicode property *White_Space*. -/
def isWhiteSpace (c : Char) : Bool :=
  let n := c.toNat
  (0x09 ≤ n && n ≤ 0x0D) || n == 0x20 || n == 0x85 || n == 0xA0 || n == 0x1680 ||
    (0x2000 ≤ n && n ≤ 0x200A) || n == 0x2028 || n == 0x2029 || n == 0x202F || n == 0x205F ||
    n == 0x3000

/-- **Blank**: white space, or one of the four ASCII information separators. -/
def isBlank (c : Char) : Bool :=
  isWhiteSpace c || (0x1C ≤ c.toNat && c.toNat ≤ 0x1F)

/-- The text without the characters of a class at either end. -/
def trim (p : Char → Bool) (s : List Char) : List Char :=
  ((s.dropWhile p).reverse.dropWhile p).reverse

/-- The words of a text of which `current` has been read already, last character first. -/
def wordsFrom (current : List Char) : List Char → List (List Char)
  | [] => if current.isEmpty then [] else [current.reverse]
  | c :: rest =>
    if isBlank c then
      if current.isEmpty then wordsFrom [] rest else current.reverse :: wordsFrom [] rest
    else wordsFrom (c :: current) rest

/-- **The words** of a text: its longest pieces without a blank, in order. -/
def words (s : List Char) : List (List Char) :=
  wordsFrom [] s

/-- A list of texts, one after the other with a text between each two. -/
def joinWith (sep : List Char) : List (List Char) → List Char
  | [] => []
  | [w] => w
  | w :: ws => w ++ sep ++ joinWith sep ws

/-- **Squeezed**: every run of blanks becomes one space, and none is left at either end. -/
def squeeze (s : List Char) : List Char :=
  joinWith [' '] (words s)

/-- The squeezed form of a string. -/
def squeezed (s : String) : String :=
  String.ofList (squeeze s.toList)

/-- Whether the first text occurs in the second as a stretch of consecutive characters. -/
def occursIn (needle : List Char) : List Char → Bool
  | [] => needle.isEmpty
  | c :: rest => needle.isPrefixOf (c :: rest) || occursIn needle rest

/-- Whether a string occurs in another. -/
def contains (s needle : String) : Bool :=
  occursIn needle.toList s.toList

end Scribe.Text
