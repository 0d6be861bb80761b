import Scribe.Action
import Scribe.Dom

/-!
# Events

**Raw events**, as a page reports them: gestures aimed at elements, and what happens to the page
itself. `Scribe.Event.shape` reads an event from a value.
-/

namespace Scribe

/-- The mouse buttons. -/
inductive MouseButton where
  | left
  | middle
  | right
  deriving Repr, DecidableEq

/-- The name of a button. -/
def MouseButton.name : MouseButton → String
  | left => "left"
  | middle => "middle"
  | right => "right"

/-- The button of a name. -/
def MouseButton.ofName? : String → Option MouseButton
  | "left" => some left
  | "middle" => some middle
  | "right" => some right
  | _ => none

/-- **What a gesture is aimed at**: an element, with the page around it. -/
structure Aim where
  /-- The reference of the element. -/
  element : Option String := none
  /-- The page at the moment of the gesture. -/
  snapshot : Option Snapshot := none
  /-- The CSS selectors of the frames around the element, the outermost first. -/
  framePath : List String := []
  /-- The modifier keys held down. -/
  modifiers : List String := []
  deriving Repr, DecidableEq

/-- **Gestures** on an element. -/
inductive Gesture where
  /-- A click; `awaiting` is the signal that it is expected to set off. -/
  | click (button : MouseButton) (count : Int) (awaiting : Option SignalKind)
  /-- Text was typed; `value` is all the field holds afterwards. -/
  | input (value : Option String)
  /-- Files were chosen or options selected. -/
  | change
  /-- A key was pressed. -/
  | keydown (key : String)
  | focus
  | blur
  | mousemove
  deriving Repr, DecidableEq

/-- **What an event tells.** -/
inductive Occurrence where
  | gesture (aim : Aim) (what : Gesture)
  /-- The main frame of the page went to an address. -/
  | navigated (url : String)
  /-- A page was opened, by no other page. -/
  | opened (url : Option String)
  /-- The page opened another one. -/
  | popup (page : String) (url : Option String)
  | closed
  /-- A download began. -/
  | download (filename : Option String)
  /-- A dialog was shown and answered. -/
  | dialog (type : String) (message : String) (dismissed : Bool)
  deriving Repr, DecidableEq

/-- **An event** of a page. -/
structure Event where
  /-- The identifier of the page. -/
  page : String
  /-- When it happened, in seconds. -/
  timestamp : Float
  /-- Whether a probe and not a person caused it. -/
  synthetic : Bool := false
  /-- What happened. -/
  what : Occurrence

/-- The word for what an event tells. -/
def Occurrence.word : Occurrence → String
  | gesture _ (.click ..) => "click"
  | gesture _ (.input _) => "input"
  | gesture _ .change => "change"
  | gesture _ (.keydown _) => "keydown"
  | gesture _ .focus => "focus"
  | gesture _ .blur => "blur"
  | gesture _ .mousemove => "mousemove"
  | navigated _ => "navigate"
  | opened _ => "pageOpened"
  | popup .. => "popup"
  | closed => "pageClosed"
  | download _ => "download"
  | dialog .. => "dialog"

/-! ### Shapes -/

namespace Event

open Check

/-- The shape of an event with the given occurrence; without a timestamp of its own it happens
`now`. -/
def withOccurrence (now : Float) (occurrence : Check Occurrence) : Check Event := fun v =>
  Event.mk <$> required v "page_id" string
    <*> withDefault v "timestamp" now float
    <*> withDefault v "synthetic" false bool
    <*> occurrence v

/-- The shape of what a gesture is aimed at. -/
def aimShape : Check Aim := fun v =>
  Aim.mk <$> withDefault v "element" none (nullable string)
    <*> withDefault v "snapshot" none (nullable Snapshot.shape)
    <*> stringItems v "frame_path"
    <*> stringItems v "modifiers"

/-- The shape of a gesture and its aim. -/
def gestureShape (gesture : Check Gesture) : Check Occurrence := fun v =>
  .gesture <$> aimShape v <*> gesture v

/-- The shape of a click. -/
def clickShape : Check Gesture := fun v =>
  .click <$> withDefault v "button" .left (member MouseButton.ofName? .literal)
    <*> withDefault v "click_count" 1 int
    <*> withDefault v "awaiting" none (nullable (member SignalKind.ofName? .enumMember))

/-- The shape of a dialog. -/
def dialogShape : Check Occurrence := fun v =>
  .dialog <$> withDefault v "dialog_type" "alert" string
    <*> withDefault v "message" "" string
    <*> withDefault v "dismissed" true bool

/-- An address that may be missing. -/
def urlField (v : Value) : Checked (Option String) :=
  withDefault v "url" none (nullable string)

/-- The shape of the occurrences of one word. -/
def occurrenceShape : String → Option (Check Occurrence)
  | "click" => some (gestureShape clickShape)
  | "input" => some (gestureShape fun v =>
      .input <$> withDefault v "value" none (nullable string))
  | "change" => some (gestureShape fun _ => .ok .change)
  | "keydown" => some (gestureShape fun v => .keydown <$> required v "key" string)
  | "focus" => some (gestureShape fun _ => .ok .focus)
  | "blur" => some (gestureShape fun _ => .ok .blur)
  | "mousemove" => some (gestureShape fun _ => .ok .mousemove)
  | "navigate" => some fun v => .navigated <$> required v "url" string
  | "pageOpened" => some fun v => .opened <$> urlField v
  | "popup" => some fun v => .popup <$> required v "popup_page_id" string <*> urlField v
  | "pageClosed" => some fun _ => .ok .closed
  | "download" => some fun v =>
      .download <$> withDefault v "suggested_filename" none (nullable string)
  | "dialog" => some dialogShape
  | _ => none

/-- **The shape of an event**, told apart by its type. -/
def shape (now : Float) : Check Event :=
  tagged "type" fun word => (occurrenceShape word).map (withOccurrence now)

end Event

end Scribe
