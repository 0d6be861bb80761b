import Scribe.Selector

/-!
# Actions

**An action** is one recorded operation: its kind, the page it works on, the element it is aimed at
and what it carries. **Signals** are what an action set off: a popup, a download, a dialog, a
navigation. An action that has not been committed to a log has a negative sequence number.

While an action is still a candidate its `page` holds the identifier of the page; `Scribe.PageNames`
replaces identifiers by aliases when the action is committed.
-/

namespace Scribe

/-! ### Kinds -/

/-- **The kind of an action.** A kind that the recorder does not know is kept by its name. -/
inductive Kind where
  | navigate
  | click
  | fill
  | check
  | uncheck
  | setInputFiles
  | selectOption
  | press
  | openPage
  | closePage
  | waitForPopup
  | waitForDownload
  | handleDialog
  | other (name : String)
  deriving Repr, DecidableEq

namespace Kind

/-- The name of a kind, as logs write it. -/
def name : Kind → String
  | navigate => "navigate"
  | click => "click"
  | fill => "fill"
  | check => "check"
  | uncheck => "uncheck"
  | setInputFiles => "setInputFiles"
  | selectOption => "selectOption"
  | press => "press"
  | openPage => "openPage"
  | closePage => "closePage"
  | waitForPopup => "waitForPopup"
  | waitForDownload => "waitForDownload"
  | handleDialog => "handleDialog"
  | other name => name

/-- The thirteen kinds that the recorder knows. -/
def known : List Kind :=
  [navigate, click, fill, check, uncheck, setInputFiles, selectOption, press, openPage, closePage,
    waitForPopup, waitForDownload, handleDialog]

/-- The kind of a name: a known one where there is one. -/
def ofName (name : String) : Kind :=
  (known.find? fun k => k.name == name).getD (other name)

/-- Whether the recorder knows the kind. -/
def isKnown : Kind → Bool
  | other _ => false
  | _ => true

/-- **Signal-bearing kinds**: what happens shortly after such an action is put down to it. -/
def bearsSignals : Kind → Bool
  | navigate | click | check | uncheck | setInputFiles | selectOption | press => true
  | _ => false

end Kind

/-! ### Signals -/

/-- **The kinds of signals.** -/
inductive SignalKind where
  | popup
  | download
  | dialog
  | navigation
  deriving Repr, DecidableEq

namespace SignalKind

/-- The name of a kind of signal. -/
def name : SignalKind → String
  | popup => "popup"
  | download => "download"
  | dialog => "dialog"
  | navigation => "navigation"

/-- All kinds of signals. -/
def all : List SignalKind :=
  [popup, download, dialog, navigation]

/-- The kind of signal of a name. -/
def ofName? (name : String) : Option SignalKind :=
  all.find? fun k => k.name == name

end SignalKind

/-- **A signal**: something that an action set off. -/
structure Signal where
  /-- What happened. -/
  kind : SignalKind
  /-- The page that a popup opened. -/
  popup : Option String := none
  /-- The variable that receives a download. -/
  download : Option String := none
  /-- Whether a dialog was dismissed; it was accepted otherwise. -/
  dismiss : Bool := true
  /-- The address that a navigation led to. -/
  url : Option String := none
  deriving Repr, DecidableEq

/-! ### Actions -/

/-- **An action**, recorded or about to be. -/
structure Action where
  /-- What was done. -/
  kind : Kind
  /-- The page it was done on. -/
  page : String
  /-- The element it was done to; an action on a page has none. -/
  selector : Option Selector := none
  /-- The CSS selectors of the frames around the element, the outermost first. -/
  framePath : List String := []
  /-- The address of a navigation or of an opened page. -/
  url : Option String := none
  /-- The text of a fill. -/
  text : Option String := none
  /-- The names of the files that were chosen; none chosen is still a choice. -/
  files : Option (List String) := none
  /-- The values that were selected. -/
  options : Option (List String) := none
  /-- The key that was pressed, with its modifiers. -/
  key : Option String := none
  /-- The mouse button of a click. -/
  button : String := "left"
  /-- How often was clicked. -/
  clickCount : Int := 1
  /-- The modifier keys held down. -/
  modifiers : List String := []
  /-- What the action set off. -/
  signals : List Signal := []
  /-- What the action was expected to set off, and did not. -/
  incompleteSignals : List SignalKind := []
  /-- The number in the log, negative before the action is committed. -/
  sequence : Int := -1
  deriving Repr, DecidableEq

namespace Action

/-- Whether the action has a number in a log. -/
def isCommitted (a : Action) : Bool :=
  a.sequence ≥ 0

/-- The first signal of a kind. -/
def signal? (a : Action) (k : SignalKind) : Option Signal :=
  a.signals.find? (·.kind == k)

/-- The action with one more signal. -/
def withSignal (a : Action) (s : Signal) : Action :=
  { a with signals := a.signals ++ [s] }

end Action

/-! ### Modifier keys -/

/-- The modifier keys, in the order in which they are written. -/
def modifierOrder : List String :=
  ["Alt", "Control", "Meta", "Shift"]

/-- **Modifiers in order**: the modifier keys of a list, each once, whatever else it holds. -/
def normalizeModifiers (given : List String) : List String :=
  modifierOrder.filter (given.contains ·)

end Scribe
