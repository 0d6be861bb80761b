import Scribe.PageNames

/-!
# Plans of programs

**A plan** is what a generated program does, statement by statement, before it is put into a
language. `Scribe.Program.plan` makes it from the actions of a log:

* a signal that did not occur becomes a comment;
* a dialog is answered by a handler that is registered before the action that shows it;
* an action that opens a popup or starts a download is performed while they are waited for;
* an action that no language can perform becomes a comment.
-/

namespace Scribe.Program

/-- **An element** as a program reaches it: from a page, through frames, by a selector. -/
structure Target where
  page : String
  frames : List String
  selector : Selector
  deriving Repr, DecidableEq

/-- **What a program does** to a page or an element. -/
inductive Operation where
  | close (page : String)
  | navigate (page : String) (url : String)
  | click (target : Target) (button : String) (count : Int) (modifiers : List String)
  | fill (target : Target) (text : String)
  /-- Switches a box on or off. -/
  | check (target : Target) (on : Bool)
  | press (target : Target) (key : String)
  | setFiles (target : Target) (files : List String)
  | select (target : Target) (options : List String)
  deriving Repr, DecidableEq

/-- **What a program waits for**, each with the variable that receives it. -/
inductive Wait where
  | popup (variableName : String)
  | download (variableName : String)
  deriving Repr, DecidableEq

/-- **A statement** of a program. -/
inductive Statement where
  | comment (text : String)
  /-- Opens a page and names it. -/
  | openPage (page : String)
  | perform (op : Operation)
  /-- Answers the next dialog of a page; the handlers of a program are numbered from one on. -/
  | answerDialog (page : String) (dismiss : Bool) (number : Nat)
  /-- Performs an operation while something is waited for. -/
  | performWaiting (page : String) (waits : List Wait) (op : Operation)
  /-- Waits without doing anything. -/
  | wait (page : String) (w : Wait)
  deriving Repr, DecidableEq

/-- A string unless it is missing or empty, and a default then. -/
def nonEmptyOr (default : String) : Option String → String
  | some s => if s.isEmpty then default else s
  | none => default

/-- What is waited for on account of a signal. -/
def waitOf? (s : Signal) : Option Wait :=
  match s.kind with
  | .popup => some (.popup (nonEmptyOr "popup" s.popup))
  | .download => some (.download (nonEmptyOr "download" s.download))
  | _ => none

/-- **What an action waits for**: its popups, then its downloads. -/
def waitsOf (a : Action) : List Wait :=
  (a.signals.filter (·.kind == .popup)).filterMap waitOf? ++
    (a.signals.filter (·.kind == .download)).filterMap waitOf?

/-- **The operation of an action** on its element. -/
def elementOperation? (a : Action) (target : Target) : Option Operation :=
  match a.kind with
  | .click => some (.click target a.button a.clickCount a.modifiers)
  | .fill => some (.fill target (a.text.getD ""))
  | .check => some (.check target true)
  | .uncheck => some (.check target false)
  | .press =>
    match a.key with
    | some key => if key.isEmpty then none else some (.press target key)
    | none => none
  | .setInputFiles => some (.setFiles target (a.files.getD []))
  | .selectOption => some (.select target (a.options.getD []))
  | _ => none

/-- **The operation of an action**, if there is one: a navigation needs an address, the others need
an element. -/
def operation? (a : Action) : Option Operation :=
  match a.kind, a.url with
  | .navigate, some url => some (.navigate a.page url)
  | _, _ => a.selector.bind fun s => elementOperation? a ⟨a.page, a.framePath, s⟩

/-- The comment for a signal that did not occur. -/
def missingComment (k : SignalKind) : Statement :=
  .comment s!"expected {k.name} did not occur; recorded without synchronization"

/-- The statements that open a page. The root page is there already; an address is visited unless
it is blank. -/
def openStatements (root : Option String) (a : Action) : List Statement :=
  (if some a.page == root then [] else [.openPage a.page]) ++
    match a.url with
    | some url =>
      if url.isEmpty || url == "about:blank" then [] else [.perform (.navigate a.page url)]
    | none => []

/-- The statements that perform an action. -/
def performStatements (a : Action) : List Statement :=
  match a.kind with
  | .handleDialog => []
  | .waitForPopup | .waitForDownload => (waitsOf a).map (.wait a.page)
  | _ =>
    match operation? a with
    | none => [.comment s!"unsupported action: {a.kind.name}"]
    | some op =>
      match waitsOf a with
      | [] => [.perform op]
      | waits => [.performWaiting a.page waits op]

/-- **The statements of an action**, when `handlers` dialog handlers have been registered before,
and how many there are afterwards. -/
def statementsOf (root : Option String) (handlers : Nat) (a : Action) : List Statement × Nat :=
  let comments := a.incompleteSignals.map missingComment
  match a.kind with
  | .openPage => (comments ++ openStatements root a, handlers)
  | .closePage => (comments ++ [.perform (.close a.page)], handlers)
  | _ =>
    match a.signal? .dialog with
    | some dialog =>
      (comments ++ .answerDialog a.page dialog.dismiss (handlers + 1) :: performStatements a,
        handlers + 1)
    | none => (comments ++ performStatements a, handlers)

/-- The statements of actions, when `handlers` dialog handlers have been registered before. -/
def planFrom (root : Option String) (handlers : Nat) : List Action → List Statement
  | [] => []
  | a :: rest =>
    let (statements, handlers) := statementsOf root handlers a
    statements ++ planFrom root handlers rest

/-- **The plan** of a program whose root page, if there is one, is there from the start. -/
def plan (root : Option String) (actions : List Action) : List Statement :=
  planFrom root 0 actions

end Scribe.Program
