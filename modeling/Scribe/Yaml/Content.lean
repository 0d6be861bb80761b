import Scribe.Value
import Scribe.Yaml.Node
import Scribe.Yaml.Scalar
import Scribe.Yaml.Token.Lexer

/-!
# Reading YAML

**The content** of a node is a value. What a node is follows from its tag, or from its shape and,
for a plain scalar, from how it is written. In a map no key comes twice, and the entries of maps
under the merge key come before its own.

* `Scribe.Yaml.Node.content` – the value of a node;
* `Scribe.Yaml.read` – the value of a text.
-/

namespace Scribe.Yaml

/-! ### Keys -/

mutual

/-- **Equal keys**: numbers are equal if their values are, whatever their type. -/
def sameKey : Value → Value → Bool
  | .null, .null => true
  | .bool a, .bool b => a == b
  | .bool a, .int n => n == a.toInt
  | .int n, .bool a => n == a.toInt
  | .int m, .int n => m == n
  | .float x, .float y => x == y || (x.isNaN && y.isNaN)
  | .float x, .int n => x == Float.ofInt n
  | .int n, .float x => x == Float.ofInt n
  | .float x, .bool a => x == Float.ofInt a.toInt
  | .bool a, .float x => x == Float.ofInt a.toInt
  | .str s, .str t => s == t
  | .date s, .date t => s == t
  | .bytes s, .bytes t => s == t
  | .list xs, .list ys => sameKeys xs ys
  | _, _ => false

/-- Equal keys, one by one. -/
def sameKeys : List Value → List Value → Bool
  | [], [] => true
  | x :: xs, y :: ys => sameKey x y && sameKeys xs ys
  | _, _ => false

end

/-- Whether a value can be a key of a map: a list can, unless it holds a list or a map. -/
def checkKey : Value → Except Fault Unit
  | .map _ => .error (.malformed .mapKey)
  | .list items =>
    if items.any fun v => match v with | .list _ | .map _ => true | _ => false then
      .error (.unreadable .key)
    else .ok ()
  | _ => .ok ()

/-- Puts an entry into a map: a key that is there keeps its place. -/
def putEntry (entries : List (Value × Value)) (e : Value × Value) : List (Value × Value) :=
  if entries.any fun f => sameKey f.1 e.1 then
    entries.map fun f => if sameKey f.1 e.1 then (f.1, e.2) else f
  else entries ++ [e]

/-- Whether a key comes twice. -/
def hasRepeatedKey : List (Value × Value) → Bool
  | [] => false
  | e :: rest => rest.any (fun f => sameKey e.1 f.1) || hasRepeatedKey rest

/-! ### Entries -/

/-- **The entries of a map**: those merged into it, and its own. -/
structure Entries where
  merged : List (Value × Value) := []
  own : List (Value × Value) := []

/-- All entries, the merged ones first. -/
def Entries.all (e : Entries) : List (Value × Value) :=
  e.merged ++ e.own

/-- **The map** that entries make. With entries merged in, the last of a key is taken; without, no
key may come twice. -/
def Entries.toMap (e : Entries) : Except Fault Value :=
  if e.merged.isEmpty && hasRepeatedKey e.own then .error (.malformed .repeatedKey)
  else .ok (.map (e.all.foldl putEntry []))

/-! ### Content -/

/-- The type of a scalar. -/
def scalarKind (tag : Option String) (plain : Bool) (text : String) : Option Kind :=
  match tag with
  | none => some (if plain then .ofPlain text.toList else .string)
  | some t => if t == "!" then some (.ofPlain text.toList) else Kind.ofTag? t

/-- The type of a list or map of which the tag may be missing. -/
def collectionKind (tag : Option String) (usual : Kind) : Option Kind :=
  match tag with
  | none => some usual
  | some t => if t == "!" then some usual else Kind.ofTag? t

/-- **The value of a scalar** of a type. -/
def scalarValue (text : String) : Option Kind → Except Fault Value
  | some .null => .ok .null
  | some .truth => (truth text).map .bool
  | some .integer => (integer text.toList).map .int
  | some .number => (number text.toList).map .float
  | some .date => (checkDate text.toList).map fun _ => .date text
  | some .string => .ok (.str text)
  | some .bytes => (bytes text.toList).map .bytes
  | some .merge | some .default | none => .error (.malformed .unknownTag)
  | some _ => .error (.malformed .wrongShape)

/-- The type of a node as a key. -/
def Node.keyKind : Node → Option Kind
  | .scalar tag plain text => scalarKind tag plain text
  | _ => none

/-- The single entries that the items of a list of pairs are. -/
def pairsOf (items : List Value) : Except Fault (List (Value × Value)) :=
  items.mapM fun v =>
    match v with
    | .map [e] => .ok e
    | _ => .error (.malformed .wrongShape)

/-- **The value of a list** of a type. -/
def listValue (items : List Value) : Option Kind → Except Fault Value
  | some .list => .ok (.list items)
  | some .orderedMap => do
    let entries ← pairsOf items
    Entries.toMap { own := entries }
  | some .pairs => do
    let entries ← pairsOf items
    pure (.list (entries.map fun e => .list [e.1, e.2]))
  | some .merge | some .default | none => .error (.malformed .unknownTag)
  | some _ => .error (.malformed .wrongShape)

/-- **The value of a map** of a type. A set is the list of its members. -/
def mapValue (entries : Entries) : Option Kind → Except Fault Value
  | some .map => entries.toMap
  | some .set => do
    let v ← entries.toMap
    pure (.list (v.entries.map (·.1)))
  | some .merge | some .default | none => .error (.malformed .unknownTag)
  | some _ => .error (.malformed .wrongShape)

/-- What stands for a collection inside itself: one that is not empty. -/
def loopValue (isList : Bool) : Value :=
  if isList then .list [.null] else .map [(.str "", .null)]

mutual

/-- **The content of a node.** -/
def Node.content : Node → Except Fault Value
  | .scalar tag plain text => scalarValue text (scalarKind tag plain text)
  | .list tag items => do
    let items ← contents items
    listValue items (collectionKind tag .list)
  | .map tag entries => do
    let entries ← entryContents {} entries
    mapValue entries (collectionKind tag .map)
  | .loop isList => .ok (loopValue isList)

/-- The contents of nodes. -/
def contents : List Node → Except Fault (List Value)
  | [] => .ok []
  | n :: ns => do
    let v ← n.content
    let vs ← contents ns
    pure (v :: vs)

/-- The contents of entries, after those read already. A second merge key is refused if the first
brought entries. -/
def entryContents : Entries → List (Node × Node) → Except Fault Entries
  | found, [] => .ok found
  | found, (k, v) :: rest => do
    if k.keyKind == some .merge then
      if !found.merged.isEmpty then .error (.malformed .repeatedKey)
      else
        let merged ← mergedContent v
        entryContents { found with merged := merged } rest
    else
      let key ← keyContent k
      checkKey key
      let value ← v.content
      entryContents { found with own := found.own ++ [(key, value)] } rest

/-- The content of a key; the key of a default value is a string. -/
def keyContent : Node → Except Fault Value
  | .scalar tag plain text =>
    if scalarKind tag plain text == some .default then .ok (.str text)
    else scalarValue text (scalarKind tag plain text)
  | n => n.content

/-- **What a merge key brings**: the entries of a map, or of a list of maps, the first of which has
the last word. -/
def mergedContent : Node → Except Fault (List (Value × Value))
  | .map _ entries => do
    let e ← entryContents {} entries
    pure e.all
  | .list _ items => mergedContents items
  | _ => .error (.malformed .merge)

/-- The entries of maps, those of the last one first. -/
def mergedContents : List Node → Except Fault (List (Value × Value))
  | [] => .ok []
  | .map _ entries :: rest => do
    let e ← entryContents {} entries
    let others ← mergedContents rest
    pure (others ++ e.all)
  | _ :: _ => .error (.malformed .merge)

end

/-- **Reads a text**: the value of its document, `null` if it has none. -/
def read (text : List Char) : Except Fault Value := do
  let ts ← tokens text
  match ← documentNode? ts with
  | some n => n.content
  | none => pure .null

end Scribe.Yaml
