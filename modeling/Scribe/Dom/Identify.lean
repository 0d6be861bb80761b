import Scribe.Dom
import Scribe.Selector

/-!
# Identifying elements

From an element and the snapshot it belongs to, a selector that tells it apart
(`Scribe.Snapshot.identify`). The strategies are tried in a fixed order, and the first one that hits
a single element is taken:

1. the attribute set aside for tests;
2. role and accessible name, first as a part of the name in any case, then as the whole name;
3. label, placeholder and visible text;
4. attributes in CSS: name, type, both, the tag alone, the identifier;
5. the structural path, which is the last resort.

Texts are compared without their case and with blanks squeezed.
-/

namespace Scribe

/-- A text as it is compared: squeezed and in lower case. -/
def folded (s : String) : String :=
  Text.lowered (Text.squeezed s)

/-- Whether a folded text occurs in a text once that is folded too. -/
def foldedIn (needle s : String) : Bool :=
  Text.contains (folded s) needle

/-- A string that is there and not empty. -/
def nonEmpty? : Option String → Option String
  | some s => if s.isEmpty then none else some s
  | none => none

namespace Snapshot

/-- Whether exactly one element has the property. -/
def hasOne (s : Snapshot) (p : Element → Bool) : Bool :=
  s.count p == 1

/-- By the attribute set aside for tests. -/
def byTestId (s : Snapshot) (testIdAttribute : String) (e : Element) : Option Selector := do
  let id ← nonEmpty? (e.attribute? testIdAttribute)
  if s.hasOne fun x => x.attribute? testIdAttribute == some id then some (.testId id) else none

/-- By role and accessible name. -/
def byRole (s : Snapshot) (e : Element) : Option Selector := do
  let role ← nonEmpty? e.role
  let name ← nonEmpty? (some (Text.squeezed e.name))
  let needle := Text.lowered name
  if s.hasOne fun x => x.role == some role && foldedIn needle x.name then
    some (.role role (some name) false)
  else if s.hasOne fun x => x.role == some role && Text.squeezed x.name == name then
    some (.role role (some name) true)
  else none

/-- By label. -/
def byLabel (s : Snapshot) (e : Element) : Option Selector := do
  let label ← nonEmpty? (e.label.map Text.squeezed)
  let needle := Text.lowered label
  if s.hasOne fun x => x.label.any (foldedIn needle) then some (.label label) else none

/-- The placeholder of an element, empty by default. -/
def placeholderOf (e : Element) : String :=
  (e.attribute? "placeholder").getD ""

/-- By placeholder. -/
def byPlaceholder (s : Snapshot) (e : Element) : Option Selector := do
  let placeholder ← nonEmpty? (some (Text.squeezed (placeholderOf e)))
  let needle := Text.lowered placeholder
  if s.hasOne fun x => foldedIn needle (placeholderOf x) then some (.placeholder placeholder)
  else none

/-- **The deepest elements** that show a folded text: those that show it while none of their
children does. -/
def deepestWithText (s : Snapshot) (needle : String) : List Element :=
  let hits := s.elements.filter fun x => foldedIn needle x.text
  hits.filter fun x => !hits.any fun y => y.parent == some x.ref

/-- The longest text that identifies an element. -/
def maxTextLength : Nat := 80

/-- The tags of form fields, which their text does not identify. -/
def fieldTags : List String :=
  ["input", "textarea", "select", "option"]

/-- By visible text. -/
def byText (s : Snapshot) (e : Element) : Option Selector := do
  let text ← nonEmpty? (some (Text.squeezed e.text))
  if text.length ≤ maxTextLength && !fieldTags.contains e.tag then
    match s.deepestWithText (Text.lowered text) with
    | [x] => if x.ref == e.ref then some (.text text) else none
    | _ => none
  else none

/-! ### Attributes in CSS -/

/-- A character inside a CSS string. -/
def cssEscape (c : Char) : List Char :=
  if c == '\\' then ['\\', '\\']
  else if c == '"' then ['\\', '"']
  else if c == '\n' then ['\\', 'a', ' ']
  else [c]

/-- **A CSS string** in double quotes. -/
def cssString (s : String) : String :=
  String.ofList ('"' :: s.toList.flatMap cssEscape ++ ['"'])

/-- The characters that may follow the first letter of an identifier. -/
def isIdentRest (c : Char) : Bool :=
  c.isAlphanum || c == '_' || c == '-'

/-- A first letter and what may follow it. -/
def isIdentBody : List Char → Bool
  | c :: rest => (c.isAlpha || c == '_') && rest.all isIdentRest
  | [] => false

/-- Whether a text can stand as an identifier in CSS; a line feed at its end is passed over. -/
def isCssIdent (s : List Char) : Bool :=
  let s := if s.getLast? == some '\n' then s.dropLast else s
  match s with
  | '-' :: rest => isIdentBody rest
  | s => isIdentBody s

/-- The selector of an element by its identifier. -/
def idSelector (id : String) : String :=
  if isCssIdent id.toList then s!"#{id}" else s!"[id={cssString id}]"

/-- An attribute with its value, as a selector. -/
def attributeSelector (name value : String) : String :=
  s!"[{name}={cssString value}]"

/-- **The attribute selectors** of an element, each with the elements that it means. -/
def attributeCandidates (e : Element) : List (String × (Element → Bool)) :=
  let hasTag (x : Element) : Bool := x.tag == e.tag
  let has (key value : String) (x : Element) : Bool := x.attribute? key == some value
  let name := nonEmpty? (e.attribute? "name")
  let type := nonEmpty? (e.attribute? "type")
  let byName := name.toList.map fun n =>
    (e.tag ++ attributeSelector "name" n, fun x => hasTag x && has "name" n x)
  let byType := type.toList.map fun t =>
    (e.tag ++ attributeSelector "type" t, fun x => hasTag x && has "type" t x)
  let byBoth := name.toList.flatMap fun n => type.toList.map fun t =>
    (e.tag ++ attributeSelector "name" n ++ attributeSelector "type" t,
      fun x => hasTag x && has "name" n x && has "type" t x)
  let byId := (nonEmpty? (e.attribute? "id")).toList.map fun i => (idSelector i, has "id" i)
  byName ++ byType ++ byBoth ++ [(e.tag, hasTag)] ++ byId

/-- By attributes in CSS: the first selector that means a single element. -/
def byAttributes (s : Snapshot) (e : Element) : Option Selector :=
  ((attributeCandidates e).find? fun c => s.hasOne c.2).map fun c => .css c.1 false

/-- **By structural path**, the last resort. An element that the snapshot does not hold is left with
its tag. -/
def byPath (s : Snapshot) (e : Element) : Selector :=
  .css ((s.structuralPath? e.ref).getD e.tag) true

/-- **The selector of an element**: the first strategy that tells it apart. -/
def identify (s : Snapshot) (testIdAttribute : String) (e : Element) : Selector :=
  (s.byTestId testIdAttribute e <|> s.byRole e <|> s.byLabel e <|> s.byPlaceholder e
    <|> s.byText e <|> s.byAttributes e).getD (s.byPath e)

end Snapshot

end Scribe
