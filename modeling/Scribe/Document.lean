import Scribe.Action.Shape
import Scribe.ActionLog
import Scribe.PageNames

/-!
# Log documents

**The document** of a recording is a value: a map with the table of aliases and the actions, as a
log file holds it. Fields that have their default are left out.

* `Scribe.document` – the document of actions and aliases;
* `Scribe.readDocument` – the way back, with all that can be wrong with a document.
-/

namespace Scribe

/-! ### Writing -/

/-- A field of a map. -/
def fieldOf (name : String) (v : Value) : Value × Value :=
  (.str name, v)

/-- A list of strings as a value. -/
def stringsValue (items : List String) : Value :=
  .list (items.map .str)

/-- A string that may be missing, as a value. -/
def optionalValue : Option String → Value
  | some s => .str s
  | none => .null

/-- A field that is there if its value is. -/
def presentField (name : String) (value : α → Value) : Option α → List (Value × Value)
  | some a => [fieldOf name (value a)]
  | none => []

/-- A field that is there unless it has its default. -/
def changedField [DecidableEq α] (name : String) (value : α → Value) (default a : α) :
    List (Value × Value) :=
  if a = default then [] else [fieldOf name (value a)]

/-- **A selector as a value**, with all its fields. -/
def Selector.toValue (s : Selector) : Value :=
  .map (fieldOf "strategy" (.str s.strategy) ::
    match s with
    | .testId value => [fieldOf "test_id" (.str value)]
    | .role kind name exact =>
      [fieldOf "role" (.str kind), fieldOf "name" (optionalValue name),
        fieldOf "exact" (.bool exact)]
    | .label words => [fieldOf "label" (.str words)]
    | .placeholder words => [fieldOf "placeholder" (.str words)]
    | .text words => [fieldOf "text" (.str words)]
    | .css path structural => [fieldOf "css" (.str path), fieldOf "structural" (.bool structural)])

/-- **A signal as a value**, without the fields that have their defaults. -/
def Signal.toValue (s : Signal) : Value :=
  .map (fieldOf "kind" (.str s.kind.name) ::
    (presentField "popup_alias" .str s.popup ++ presentField "download_alias" .str s.download ++
      changedField "dismiss" .bool true s.dismiss ++ presentField "url" .str s.url))

/-- **An action as a value**, without the fields that have their defaults. -/
def Action.toValue (a : Action) : Value :=
  .map (fieldOf "kind" (.str a.kind.name) :: fieldOf "page_alias" (.str a.page) ::
    (presentField "selector" Selector.toValue a.selector ++
      changedField "frame_path" stringsValue [] a.framePath ++
      presentField "url" .str a.url ++
      presentField "text" .str a.text ++
      presentField "files" stringsValue a.files ++
      presentField "options" stringsValue a.options ++
      presentField "key" .str a.key ++
      changedField "button" .str "left" a.button ++
      changedField "click_count" .int 1 a.clickCount ++
      changedField "modifiers" stringsValue [] a.modifiers ++
      changedField "signals" (fun ss => .list (ss.map Signal.toValue)) [] a.signals ++
      changedField "incomplete_signals" (fun ks => stringsValue (ks.map SignalKind.name)) []
        a.incompleteSignals ++
      changedField "sequence" .int (-1) a.sequence))

/-- **A table of aliases as a value.** -/
def AliasTable.toValue (t : AliasTable) : Value :=
  .map [fieldOf "pages" (.map (t.pages.map fun e => fieldOf e.1 (.str e.2))),
    fieldOf "root" (optionalValue t.root), fieldOf "released" (stringsValue t.released)]

/-- **The document** of a recording. -/
def document (actions : List Action) (aliases : AliasTable) : Value :=
  .map [fieldOf "aliases" aliases.toValue, fieldOf "actions" (.list (actions.map Action.toValue))]

/-! ### Reading -/

/-- **What is wrong with a document.** -/
inductive DocumentError where
  /-- It is no map. -/
  | notMap
  /-- Its aliases are no map. -/
  | aliasesNotMap
  /-- Its actions are no list. -/
  | actionsNotList
  /-- Its closed pages cannot be listed. -/
  | releasedNotListed
  /-- Its aliases or one of its actions have the wrong shape. -/
  | shape (faults : List Fault)
  /-- Its actions do not make a log. -/
  | violation (v : LogViolation)
  deriving Repr, DecidableEq

open Check

/-- **The shape of a table of aliases.** -/
def AliasTable.shape : Check AliasTable :=
  record fun v =>
    AliasTable.mk <$> withDefault v "pages" [] stringMap
      <*> withDefault v "root" none (nullable string)
      <*> withDefault v "released" [] (listOf .tupleType string)

/-- The value under a key of a map, unless it does not count as given. -/
def givenField? (entries : List (Value × Value)) (name : String) : Option Value :=
  (Value.field? entries name).filter Value.isGiven

/-- What a value lists: the items of a list, the keys of a map, the characters of a string. -/
def listed? : Value → Option (List Value)
  | .list items => some items
  | .map entries => some (entries.map (·.1))
  | .str s => some (s.toList.map fun c => .str (String.singleton c))
  | .bytes content => some (content.map fun b => .int b.toNat)
  | _ => none

/-- A result of a check, or the fault of a document. -/
def shaped : Checked α → Except DocumentError α
  | .ok a => .ok a
  | .faulty faults => .error (.shape faults)

/-- The table of aliases of a document. -/
def readAliases (entries : List (Value × Value)) : Except DocumentError AliasTable :=
  match (givenField? entries "released").getD (.list []) |> listed? with
  | none => .error .releasedNotListed
  | some released =>
    shaped (AliasTable.shape (.map [
      fieldOf "pages" ((givenField? entries "pages").getD (.map [])),
      fieldOf "root" ((Value.field? entries "root").getD .null),
      fieldOf "released" (.list released)]))

/-- One action read and appended to the log. -/
def readAction (log : ActionLog) (item : Value) : Except DocumentError ActionLog :=
  match shaped (Action.shape item) with
  | .error e => .error e
  | .ok a =>
    match log.append a with
    | .error v => .error (.violation v)
    | .ok (_, log) => .ok log

/-- The aliases of a document, a map if they count as given. -/
def aliasEntries (entries : List (Value × Value)) :
    Except DocumentError (List (Value × Value)) :=
  match givenField? entries "aliases" with
  | none => .ok []
  | some (.map aliases) => .ok aliases
  | some _ => .error .aliasesNotMap

/-- The actions of a document, a list if they count as given. -/
def actionItems (entries : List (Value × Value)) : Except DocumentError (List Value) :=
  match givenField? entries "actions" with
  | none => .ok []
  | some (.list items) => .ok items
  | some _ => .error .actionsNotList

/-- **Reads a document**: its actions, appended to an empty log, and its table of aliases. -/
def readDocument : Value → Except DocumentError (List Action × AliasTable)
  | .map entries => do
    let aliases ← aliasEntries entries
    let items ← actionItems entries
    let table ← readAliases aliases
    let log ← items.foldlM readAction {}
    pure (log.actions, table)
  | _ => .error .notMap

end Scribe
