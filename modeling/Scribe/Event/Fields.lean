import Scribe.Document
import Scribe.Event

/-!
# Events as values

**The value of an event** has all its fields, under the names by which `Scribe.Event.shape` reads
them.
-/

namespace Scribe

/-- **An element as a value.** -/
def Element.toValue (e : Element) : Value :=
  .map [fieldOf "ref" (.str e.ref), fieldOf "tag" (.str e.tag),
    fieldOf "attributes" (.map (e.attributes.map fun a => fieldOf a.1 (.str a.2))),
    fieldOf "role" (optionalValue e.role), fieldOf "name" (.str e.name),
    fieldOf "text" (.str e.text), fieldOf "label" (optionalValue e.label),
    fieldOf "parent" (optionalValue e.parent), fieldOf "checked" (e.checked.elim .null .bool),
    fieldOf "value" (optionalValue e.value), fieldOf "files" (stringsValue e.files),
    fieldOf "selected" (stringsValue e.selected)]

/-- **A snapshot as a value.** -/
def Snapshot.toValue (s : Snapshot) : Value :=
  .map [fieldOf "elements" (.list (s.elements.map Element.toValue))]

/-- The fields of what a gesture is aimed at. -/
def Aim.fields (a : Aim) : List (Value × Value) :=
  [fieldOf "element" (optionalValue a.element),
    fieldOf "snapshot" (a.snapshot.elim .null Snapshot.toValue),
    fieldOf "frame_path" (stringsValue a.framePath), fieldOf "modifiers" (stringsValue a.modifiers)]

/-- The fields of a gesture. -/
def Gesture.fields : Gesture → List (Value × Value)
  | click button count awaiting =>
    [fieldOf "button" (.str button.name), fieldOf "click_count" (.int count),
      fieldOf "awaiting" (optionalValue (awaiting.map SignalKind.name))]
  | input value => [fieldOf "value" (optionalValue value)]
  | keydown key => [fieldOf "key" (.str key)]
  | change | focus | blur | mousemove => []

/-- The fields of what an event tells. -/
def Occurrence.fields : Occurrence → List (Value × Value)
  | gesture aim what => aim.fields ++ what.fields
  | navigated url => [fieldOf "url" (.str url)]
  | opened url => [fieldOf "url" (optionalValue url)]
  | popup page url => [fieldOf "popup_page_id" (.str page), fieldOf "url" (optionalValue url)]
  | closed => []
  | download filename => [fieldOf "suggested_filename" (optionalValue filename)]
  | dialog type message dismissed =>
    [fieldOf "dialog_type" (.str type), fieldOf "message" (.str message),
      fieldOf "dismissed" (.bool dismissed)]

/-- **An event as a value.** -/
def Event.toValue (e : Event) : Value :=
  .map ([fieldOf "type" (.str e.what.word), fieldOf "page_id" (.str e.page),
    fieldOf "timestamp" (.float e.timestamp), fieldOf "synthetic" (.bool e.synthetic)] ++
    e.what.fields)

end Scribe
