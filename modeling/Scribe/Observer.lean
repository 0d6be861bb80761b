import Scribe.Candidate
import Scribe.Dom.Identify
import Scribe.Event

/-!
# Observing events

**The observer** turns raw events into candidates. It drops what is no operation – synthetic events,
movements of the mouse and of the focus, gestures on pages that are not open or on elements that are
gone – and keeps track of the pages that are open.

Candidates name pages by identifier; aliases are given when actions are committed.
-/

namespace Scribe

/-- **What is known of the pages.** -/
structure Observer where
  /-- The attribute that identifies elements for tests. -/
  testIdAttribute : String := "data-testid"
  /-- The pages met so far, each with the address where it is. -/
  addresses : List (String × Option String) := []
  /-- The pages that have been closed. -/
  closed : List String := []
  /-- The popups that have not loaded their first page; that they do so is no navigation. -/
  loading : List String := []
  deriving Repr, DecidableEq

/-- The keys that only modify others. -/
def modifierKeys : List String :=
  ["Alt", "Control", "Meta", "Shift", "AltGraph", "CapsLock"]

/-- The keys that edit a text field, whose effect its input event tells. -/
def editingKeys : List String :=
  ["Backspace", "Delete"]

/-- An address that says where a page is; a blank page is nowhere. -/
def meaningfulUrl? : Option String → Option String
  | none => none
  | some url => if ["", "about:blank", "chrome://newtab/"].contains url then none else some url

/-- The list of entries with the value under a name set. -/
def setEntry (entries : List (String × α)) (name : String) (a : α) : List (String × α) :=
  if entries.any (·.1 == name) then
    entries.map fun e => if e.1 == name then (name, a) else e
  else entries ++ [(name, a)]

namespace Observer

/-- Whether the page has been met, open or closed. -/
def isKnown (o : Observer) (page : String) : Bool :=
  o.addresses.any (·.1 == page)

/-- Whether the page is open. -/
def isOpen (o : Observer) (page : String) : Bool :=
  o.isKnown page && !o.closed.contains page

/-- The observer with the address of a page set. -/
def setAddress (o : Observer) (page : String) (url : Option String) : Observer :=
  { o with addresses := setEntry o.addresses page url }

/-! ### Pages -/

/-- A page was opened. -/
def onOpened (o : Observer) (page : String) (url : Option String) : List Candidate × Observer :=
  if o.isKnown page then ([], o)
  else
    let action : Action := { kind := .openPage, page := page, url := meaningfulUrl? url }
    ([.action { action := action }], o.setAddress page url)

/-- A signal candidate with the action that stands for it. -/
def signalCandidate (page : String) (signal : Signal) (standalone : Action) : Candidate :=
  .signal { page := page, signal := signal, standalone := standalone }

/-- A page opened another one. If the opener is not open, the popup counts as a page of its own. -/
def onPopup (o : Observer) (page popup : String) (url : Option String) :
    List Candidate × Observer :=
  if o.isKnown popup then ([], o)
  else if !o.isOpen page then o.onOpened popup url
  else
    let o := o.setAddress popup url
    let o := if (meaningfulUrl? url).isNone then { o with loading := popup :: o.loading } else o
    let signal : Signal := { kind := .popup, popup := some popup }
    ([signalCandidate page signal { kind := .waitForPopup, page := page, signals := [signal] }], o)

/-- A page was closed. -/
def onClosed (o : Observer) (page : String) : List Candidate × Observer :=
  ([.action { action := { kind := .closePage, page := page } }],
    { o with closed := page :: o.closed })

/-- A page went to an address. Staying where it is and the first load of a popup do not count. -/
def onNavigated (o : Observer) (page url : String) : List Candidate × Observer :=
  if o.addresses.lookup page == some (some url) then ([], o)
  else
    let moved := o.setAddress page (some url)
    if o.loading.contains page then
      ([], { moved with loading := o.loading.filter (· != page) })
    else
      let signal : Signal := { kind := .navigation, url := some url }
      ([signalCandidate page signal { kind := .navigate, page := page, url := some url }], moved)

/-- A download began. -/
def onDownload (page : String) : Candidate :=
  let signal : Signal := { kind := .download }
  signalCandidate page signal { kind := .waitForDownload, page := page, signals := [signal] }

/-- A dialog was answered. -/
def onDialog (page : String) (dismissed : Bool) : Candidate :=
  let signal : Signal := { kind := .dialog, dismiss := dismissed }
  signalCandidate page signal { kind := .handleDialog, page := page, signals := [signal] }

/-! ### Gestures -/

/-- What a click on an element amounts to. Files and options are told by their change event. -/
def clickAction (blank : Action) (e : Element) (button : MouseButton) (count : Int)
    (modifiers : List String) : Option Action :=
  if e.isFileInput || e.isSelect then none
  else if e.isToggle then
    some { blank with kind := if e.checked == some true then .check else .uncheck }
  else
    some { blank with
      kind := .click, button := button.name, clickCount := count, modifiers := modifiers }

/-- What a pressed key amounts to. Keys that a text field takes in are told by its input event. -/
def keyAction (blank : Action) (e : Element) (key : String) (modifiers : List String) :
    Option Action :=
  let plain := modifiers.all (· == "Shift")
  if modifierKeys.contains key then none
  else if key.length == 1 && plain then none
  else if editingKeys.contains key && e.isTextField && plain then none
  else some { blank with kind := .press, key := some ("+".intercalate (modifiers ++ [key])) }

/-- **What a gesture amounts to**: the kind of the action and what it carries, put into an action
that has the page, the element and the frames already. -/
def gestureAction (blank : Action) (e : Element) (modifiers : List String) :
    Gesture → Option Action
  | .click button count _ => clickAction blank e button count modifiers
  | .input value =>
    if e.isTextField then
      some { blank with kind := .fill, text := some ((value <|> e.value).getD "") }
    else none
  | .change =>
    if e.isFileInput then some { blank with kind := .setInputFiles, files := some e.files }
    else if e.isSelect then
      some { blank with kind := .selectOption, options := some e.selected }
    else none
  | .keydown key => keyAction blank e key modifiers
  | .focus | .blur | .mousemove => none

/-- The signal that a gesture is expected to set off. -/
def awaitedBy : Gesture → Option SignalKind
  | .click _ _ awaiting => awaiting
  | _ => none

/-- A gesture on an open page. -/
def onGesture (o : Observer) (page : String) (aim : Aim) (what : Gesture) : Option Candidate := do
  let snapshot ← aim.snapshot
  let ref ← aim.element
  let e ← snapshot.get? ref
  let blank : Action := { kind := .click, page := page, framePath := aim.framePath }
  let action ← gestureAction blank e (normalizeModifiers aim.modifiers) what
  some (.action {
    action := { action with selector := some (snapshot.identify o.testIdAttribute e) }
    key := some ⟨page, aim.framePath, e.ref⟩
    awaiting := awaitedBy what })

/-- **Observes an event**: the candidates that it yields, and what is known of the pages
afterwards. -/
def observe (o : Observer) (event : Event) : List Candidate × Observer :=
  if event.synthetic then ([], o)
  else
    match event.what with
    | .opened url => o.onOpened event.page url
    | .popup page url => o.onPopup event.page page url
    | what =>
      if !o.isOpen event.page then ([], o)
      else
        match what with
        | .closed => o.onClosed event.page
        | .navigated url => o.onNavigated event.page url
        | .download _ => ([onDownload event.page], o)
        | .dialog _ _ dismissed => ([onDialog event.page dismissed], o)
        | .gesture aim what => ((o.onGesture event.page aim what).toList, o)
        | _ => ([], o)

end Observer

end Scribe
