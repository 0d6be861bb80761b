import Scribe.Dom.Identify
import Mathlib.Data.List.Nodup
import Mathlib.Logic.Relation

/-!
# What a selector asks for

**A criterion** is a strategy together with what it asks for. It has two sides:
`Scribe.Criterion.selector` is the selector that it is written as, and `Scribe.Criterion.Matches`
says of an element of a page whether it meets the criterion, in terms of the element alone, or, for
a visible text, of the element and what lies below it.

* `Scribe.Element.criteria` – the criteria that an element meets by its own attributes, role, name
  and texts, in the order of preference;
* `Scribe.Snapshot.SinglesOut` – the criterion is met by one element and by no other;
* `Scribe.Snapshot.ShowsThrough` – a text that shows at an element and somewhere below it shows on
  the way down. A page has its texts so, unless some of them are cut off.
-/

namespace Scribe

/-! ### Texts -/

/-- **A text holds another** if it does once its blanks are squeezed, in any case. -/
def HoldsText (text needle : String) : Prop :=
  (Text.lowered needle).toList <:+: (folded text).toList

instance decidableHoldsText (text needle : String) : Decidable (HoldsText text needle) :=
  inferInstanceAs (Decidable (_ <:+: _))

/-! ### What lies below an element -/

namespace Snapshot

variable (s : Snapshot)

/-- The second element is a child of the first. -/
def IsChild (x y : Element) : Prop :=
  y ∈ s.elements ∧ y.parent = some x.ref

/-- **The second element lies below the first**: it is a child of it, or a child of a child, and so
on. -/
def IsBelow : Element → Element → Prop :=
  Relation.TransGen s.IsChild

/-- **A text shows through**: an element that shows it has, if it shows below, a child that shows
it. -/
def ShowsThrough (needle : String) : Prop :=
  ∀ x ∈ s.elements, HoldsText x.text needle → ∀ y, s.IsBelow x y → HoldsText y.text needle →
    ∃ z, s.IsChild x z ∧ HoldsText z.text needle

end Snapshot

/-! ### Criteria -/

/-- **What an attribute selector asks for**: the tag and the values of three attributes, each of
them if it is given. -/
structure AttributeTest where
  /-- The name of the tag. -/
  tag : Option String := none
  /-- The value of the attribute `name`. -/
  name : Option String := none
  /-- The value of the attribute `type`. -/
  type : Option String := none
  /-- The value of the attribute `id`. -/
  id : Option String := none
  deriving Repr, DecidableEq

/-- An attribute test in CSS. -/
def AttributeTest.css (t : AttributeTest) : String :=
  t.tag.getD "" ++ (t.name.map (Snapshot.attributeSelector "name")).getD "" ++
    (t.type.map (Snapshot.attributeSelector "type")).getD "" ++
      (t.id.map Snapshot.idSelector).getD ""

/-- Whether an element passes an attribute test. -/
def AttributeTest.Holds (t : AttributeTest) (x : Element) : Prop :=
  (∀ tag ∈ t.tag, x.tag = tag) ∧ (∀ name ∈ t.name, x.attribute? "name" = some name) ∧
    (∀ type ∈ t.type, x.attribute? "type" = some type) ∧ ∀ id ∈ t.id, x.attribute? "id" = some id

/-- **A criterion**: a strategy and what it asks for. -/
inductive Criterion where
  /-- The attribute set aside for tests has the value. -/
  | testId (key value : String)
  /-- The role is the given one, and the accessible name is or holds the given one. -/
  | role (role name : String) (exact : Bool)
  /-- The label holds the text. -/
  | label (text : String)
  /-- The placeholder holds the text. -/
  | placeholder (text : String)
  /-- The visible text holds the text, and deeper down none does. -/
  | text (text : String)
  /-- The tag and attributes are the given ones. -/
  | attributes (test : AttributeTest)
  deriving Repr, DecidableEq

namespace Criterion

/-- The selector that a criterion is written as. -/
def selector : Criterion → Selector
  | .testId _ value => .testId value
  | .role kind words exact => .role kind (some words) exact
  | .label words => .label words
  | .placeholder words => .placeholder words
  | .text words => .text words
  | .attributes test => .css test.css false

/-- **Which elements meet a criterion**, given what counts as deeper than an element. -/
def Matches (deeper : Element → Element → Prop) : Criterion → Element → Prop
  | .testId key value, x => x.attribute? key = some value
  | .role kind words false, x => x.role = some kind ∧ HoldsText x.name words
  | .role kind words true, x => x.role = some kind ∧ Text.squeezed x.name = words
  | .label words, x => ∃ found, x.label = some found ∧ HoldsText found words
  | .placeholder words, x =>
    ∃ found, x.attribute? "placeholder" = some found ∧ HoldsText found words
  | .text words, x => HoldsText x.text words ∧ ∀ y, deeper x y → ¬ HoldsText y.text words
  | .attributes test, x => test.Holds x

end Criterion

/-- **A criterion singles out an element** of a snapshot: it meets it, and no other element does. -/
def Snapshot.SinglesOut (s : Snapshot) (deeper : Element → Element → Prop) (c : Criterion)
    (e : Element) : Prop :=
  c.Matches deeper e ∧ ∀ x ∈ s.elements, c.Matches deeper x → x = e

/-! ### The criteria of an element -/

namespace Element

variable (e : Element)

/-- The attribute set aside for tests. -/
def testIdCriteria (testIdAttribute : String) : List Criterion :=
  (nonEmpty? (e.attribute? testIdAttribute)).toList.map (.testId testIdAttribute)

/-- Role and accessible name, the name as a part first. -/
def roleCriteria : List Criterion :=
  match nonEmpty? e.role, nonEmpty? (some (Text.squeezed e.name)) with
  | some role, some name => [.role role name false, .role role name true]
  | _, _ => []

/-- The label. -/
def labelCriteria : List Criterion :=
  (nonEmpty? (e.label.map Text.squeezed)).toList.map .label

/-- The placeholder. -/
def placeholderCriteria : List Criterion :=
  (nonEmpty? ((e.attribute? "placeholder").map Text.squeezed)).toList.map .placeholder

/-- The visible text, unless it is too long or the element is a form field. -/
def textCriteria : List Criterion :=
  ((nonEmpty? (some (Text.squeezed e.text))).filter fun text =>
    text.length ≤ Snapshot.maxTextLength && !Snapshot.fieldTags.contains e.tag).toList.map .text

/-- Tests of tag and attributes: the name, the type, both, the tag alone, the identifier. -/
def attributeTests : List AttributeTest :=
  let name := nonEmpty? (e.attribute? "name")
  let type := nonEmpty? (e.attribute? "type")
  (name.toList.map fun n => { tag := some e.tag, name := some n }) ++
    (type.toList.map fun t => { tag := some e.tag, type := some t }) ++
    (name.toList.flatMap fun n => type.toList.map fun t =>
      { tag := some e.tag, name := some n, type := some t }) ++
    [{ tag := some e.tag }] ++
    (nonEmpty? (e.attribute? "id")).toList.map fun i => { id := some i }

/-- **The criteria of an element**, in the order of preference. -/
def criteria (testIdAttribute : String) : List Criterion :=
  e.testIdCriteria testIdAttribute ++ e.roleCriteria ++ e.labelCriteria ++ e.placeholderCriteria ++
    e.textCriteria ++ e.attributeTests.map .attributes

end Element

end Scribe
