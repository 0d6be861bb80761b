import Scribe.Text.Decimal

/-!
# Values

**Dynamic values**: what a message of a page or a log file holds before it has been checked. A map
keeps its entries in the order in which they were written, and its keys are values as well, since a
log file may have keys that are not strings.
-/

namespace Scribe

/-- **A value** of a message or of a log file. -/
inductive Value where
  | null
  | bool (b : Bool)
  | int (n : Int)
  | float (x : Float)
  | str (s : String)
  | list (items : List Value)
  | map (entries : List (Value × Value))
  /-- A value that no field takes, such as a date; `text` is its written form. -/
  | date (text : String)
  /-- A sequence of bytes. -/
  | bytes (content : List UInt8)
  deriving Inhabited

namespace Value

/-- Whether a value counts as given: `null`, `false`, zero and what is empty do not. -/
def isGiven : Value → Bool
  | null => false
  | bool b => b
  | int n => n != 0
  | float x => x != 0.0
  | str s => !s.isEmpty
  | list items => !items.isEmpty
  | map entries => !entries.isEmpty
  | date _ => true
  | bytes content => !content.isEmpty

/-- Whether a value is the string. -/
def isStr (s : String) : Value → Bool
  | str t => t == s
  | _ => false

/-- The value under a key in the entries of a map. -/
def field? (entries : List (Value × Value)) (name : String) : Option Value :=
  (entries.find? fun e => e.1.isStr name).map (·.2)

/-- The entries of a map, none for other values. -/
def entries : Value → List (Value × Value)
  | map es => es
  | _ => []

/-- The value under a key of a map. -/
def get? (v : Value) (name : String) : Option Value :=
  field? v.entries name

end Value

end Scribe
