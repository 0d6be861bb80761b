import Scribe.Value

/-!
# Checking values

A value is checked against a shape, and a check that fails tells **all** faults, each with its
place, in the order of the fields. So a check is an applicative and not a monad:
`Scribe.Checked.seq` keeps the faults of both sides.

* `Scribe.Checked` – a result or the list of faults;
* `Scribe.Check` – the checks of single values, lists, maps, records and tagged unions.

The checks are lenient: an integer may come as a boolean, as a whole number in floating point or as
a numeral, and similarly for the other scalars.
-/

namespace Scribe

/-! ### Faults -/

/-- **What can be wrong** with a value. -/
inductive FaultKind where
  | missing
  | stringType
  | stringUnicode
  | intType
  | intParsing
  | intParsingSize
  | intFromFloat
  | finiteNumber
  | boolType
  | boolParsing
  | floatType
  | floatParsing
  | enumMember
  | literal
  | tupleType
  | listType
  | mapType
  | recordType
  | unionType
  | unionTagMissing
  | unionTagUnknown
  deriving Repr, DecidableEq

/-- The word for a kind of fault. -/
def FaultKind.word : FaultKind → String
  | missing => "missing"
  | stringType => "string_type"
  | stringUnicode => "string_unicode"
  | intType => "int_type"
  | intParsing => "int_parsing"
  | intParsingSize => "int_parsing_size"
  | intFromFloat => "int_from_float"
  | finiteNumber => "finite_number"
  | boolType => "bool_type"
  | boolParsing => "bool_parsing"
  | floatType => "float_type"
  | floatParsing => "float_parsing"
  | enumMember => "enum"
  | literal => "literal_error"
  | tupleType => "tuple_type"
  | listType => "list_type"
  | mapType => "dict_type"
  | recordType => "model_type"
  | unionType => "model_attributes_type"
  | unionTagMissing => "union_tag_not_found"
  | unionTagUnknown => "union_tag_invalid"

/-- A step on the way from the root of a value to the place of a fault. -/
inductive Step where
  | name (s : String)
  | index (i : Int)
  deriving Repr, DecidableEq

/-- **A fault**: what is wrong, and where. -/
structure Fault where
  /-- What is wrong. -/
  kind : FaultKind
  /-- The steps from the root to the place. -/
  place : List Step := []
  deriving Repr, DecidableEq

/-! ### Results -/

/-- **The result of a check**: the checked value, or what is wrong. -/
inductive Checked (α : Type u) where
  | ok (a : α)
  | faulty (faults : List Fault)
  deriving Repr, DecidableEq

namespace Checked

/-- A result under a function. -/
def map (f : α → β) : Checked α → Checked β
  | ok a => ok (f a)
  | faulty es => faulty es

/-- Two results side by side: the faults of both are kept, the left ones first. -/
def seq (f : Checked (α → β)) (x : Unit → Checked α) : Checked β :=
  match f, x () with
  | ok g, ok a => ok (g a)
  | ok _, faulty es => faulty es
  | faulty es, ok _ => faulty es
  | faulty es, faulty fs => faulty (es ++ fs)

instance : Applicative Checked where
  pure := ok
  map := map
  seq := seq

/-- A single fault at the root. -/
def fault (k : FaultKind) : Checked α :=
  faulty [⟨k, []⟩]

/-- The result one step further from the root. -/
def under (s : Step) : Checked α → Checked α
  | ok a => ok a
  | faulty es => faulty (es.map fun e => { e with place := s :: e.place })

/-- The value, if there is no fault. -/
def toOption : Checked α → Option α
  | ok a => some a
  | faulty _ => none

/-- The results of a list, all faults kept. -/
def all : List (Checked α) → Checked (List α)
  | [] => ok []
  | x :: xs => List.cons <$> x <*> all xs

@[simp] theorem pure_eq (a : α) : (pure a : Checked α) = ok a := rfl

@[simp] theorem map_ok (f : α → β) (a : α) : f <$> (ok a : Checked α) = ok (f a) := rfl

@[simp] theorem ok_seq_ok (f : α → β) (a : α) : (ok f : Checked (α → β)) <*> ok a = ok (f a) := rfl

end Checked

/-! ### Checks -/

/-- **A check** of a value. -/
abbrev Check (α : Type) := Value → Checked α

namespace Check

/-- A string; bytes stand for the text that they encode. -/
def string : Check String
  | .str s => .ok s
  | .bytes content =>
    match String.fromUTF8? ⟨content.toArray⟩ with
    | some s => .ok s
    | none => .fault .stringUnicode
  | _ => .fault .stringType

/-- The integer that a double is, if it is one. -/
def floatInt (x : Float) : Checked Int :=
  if x.isNaN || x.isInf then .fault .finiteNumber
  else if x != x.floor then .fault .intFromFloat
  else if x ≤ -9223372036854775808.0 || x ≥ 9223372036854775808.0 then .fault .intParsingSize
  else .ok x.toInt64.toInt

/-- An integer from a numeral. -/
def numeralInt (s : String) : Checked Int :=
  match Text.readLenientInt? s.toList with
  | some n => if s.length ≤ Text.maxDigits then .ok n else .fault .intParsingSize
  | none => .fault .intParsing

/-- An integer: also a boolean, a whole double or a numeral. -/
def int : Check Int
  | .int n => .ok n
  | .bool b => .ok (if b then 1 else 0)
  | .float x => floatInt x
  | .str s => numeralInt s
  | _ => .fault .intType

/-- The words for yes and for no. -/
def truthWords : List (String × Bool) :=
  [("0", false), ("off", false), ("f", false), ("false", false), ("n", false), ("no", false),
    ("1", true), ("on", true), ("t", true), ("true", true), ("y", true), ("yes", true)]

/-- A boolean: also zero, one or a word for yes or no in any case. -/
def bool : Check Bool
  | .bool b => .ok b
  | .int n => if n == 0 then .ok false else if n == 1 then .ok true else .fault .boolParsing
  | .float x => if x == 0.0 then .ok false else if x == 1.0 then .ok true else .fault .boolType
  | .str s =>
    match truthWords.lookup s.toLower with
    | some b => .ok b
    | none => .fault .boolParsing
  | _ => .fault .boolType

/-- A double: also an integer, a boolean or a numeral. -/
def float : Check Float
  | .float x => .ok x
  | .int n => .ok (Float.ofInt n)
  | .bool b => .ok (if b then 1.0 else 0.0)
  | .str s =>
    match Text.readLenientFloat? s.toList with
    | some x => .ok x
    | none => .fault .floatParsing
  | _ => .fault .floatType

/-- A member of a closed set of names. -/
def member (ofName? : String → Option α) (k : FaultKind) : Check α
  | .str s =>
    match ofName? s with
    | some a => .ok a
    | none => .fault k
  | _ => .fault k

/-- A value that may be `null`. -/
def nullable (check : Check α) : Check (Option α)
  | .null => .ok none
  | v => some <$> check v

/-- The items of a list, checked from an index on. -/
def itemsFrom (check : Check α) : Nat → List Value → Checked (List α)
  | _, [] => .ok []
  | i, v :: vs => List.cons <$> (check v).under (.index i) <*> itemsFrom check (i + 1) vs

/-- A list, refused with the given fault if the value is none. -/
def listOf (k : FaultKind) (check : Check α) : Check (List α)
  | .list vs => itemsFrom check 0 vs
  | _ => .fault k

/-- The step that leads to a key. -/
def keyStep : Value → Step
  | .str s => .name s
  | .int n => .index n
  | .bool b => .index (if b then 1 else 0)
  | .float x => .name (String.ofList (Text.timeText x))
  | .null => .name "None"
  | .date text => .name text
  | _ => .name ""

/-- One entry of a map of strings: a faulty key is told before a faulty value. -/
def stringEntry (e : Value × Value) : Checked (String × String) :=
  Prod.mk <$> ((string e.1).under (.name "[key]")).under (keyStep e.1)
    <*> (string e.2).under (keyStep e.1)

/-- A map from strings to strings. -/
def stringMap : Check (List (String × String))
  | .map entries => .all (entries.map stringEntry)
  | _ => .fault .mapType

/-! ### Records and unions -/

/-- A field that has to be there. -/
def required (v : Value) (name : String) (check : Check α) : Checked α :=
  ((v.get? name).elim (.fault .missing) check).under (.name name)

/-- A field that has a default. -/
def withDefault (v : Value) (name : String) (default : α) (check : Check α) : Checked α :=
  ((v.get? name).elim (.ok default) check).under (.name name)

/-- A record: a map, whose fields are then checked. -/
def record (fields : Check α) : Check α
  | .map entries => fields (.map entries)
  | _ => .fault .recordType

/-- **A tagged union**: the member that the tag names does the check, and the tag becomes a step of
its faults. -/
def tagged (tag : String) (members : String → Option (Check α)) : Check α
  | .map entries =>
    match Value.field? entries tag with
    | none => .fault .unionTagMissing
    | some (.str name) =>
      match members name with
      | some check => (check (.map entries)).under (.name name)
      | none => .fault .unionTagUnknown
    | some _ => .fault .unionTagUnknown
  | _ => .fault .unionType

end Check

end Scribe
