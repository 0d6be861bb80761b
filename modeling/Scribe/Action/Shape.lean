import Scribe.Action
import Scribe.Value.Check

/-!
# Reading actions

The shapes of selectors, signals and actions: each field is checked in the order in which the
record declares it, and a field that is absent takes its default.
-/

namespace Scribe

open Check

/-- The text-like fields: strings that may be `null`, and are by default. -/
def optionalString (v : Value) (name : String) : Checked (Option String) :=
  withDefault v name none (nullable string)

/-- A list of strings that is empty by default. -/
def stringTuple (v : Value) (name : String) : Checked (List String) :=
  withDefault v name [] (listOf .tupleType string)

/-- A list of strings that may be `null`, and is by default. -/
def optionalTuple (v : Value) (name : String) : Checked (Option (List String)) :=
  withDefault v name none (nullable (listOf .tupleType string))

/-- The shape of the selectors of one strategy. -/
def Selector.member : String → Option (Check Selector)
  | "testId" => some fun v => .testId <$> required v "test_id" string
  | "role" => some fun v =>
    .role <$> required v "role" string <*> optionalString v "name"
      <*> withDefault v "exact" false bool
  | "label" => some fun v => .label <$> required v "label" string
  | "placeholder" => some fun v => .placeholder <$> required v "placeholder" string
  | "text" => some fun v => .text <$> required v "text" string
  | "css" => some fun v =>
    .css <$> required v "css" string <*> withDefault v "structural" false bool
  | _ => none

/-- **The shape of a selector**, told apart by its strategy. -/
def Selector.shape : Check Selector :=
  tagged "strategy" Selector.member

/-- The shape of the name of a kind of signal. -/
def SignalKind.shape : Check SignalKind :=
  Check.member SignalKind.ofName? .enumMember

/-- **The shape of a signal.** -/
def Signal.shape : Check Signal :=
  record fun v =>
    Signal.mk <$> required v "kind" SignalKind.shape
      <*> optionalString v "popup_alias"
      <*> optionalString v "download_alias"
      <*> withDefault v "dismiss" true bool
      <*> optionalString v "url"

/-- **The shape of the kind of an action**: any string. What is no string is neither one of the
known kinds nor a name, and both are told. -/
def Kind.shape : Check Kind
  | .str s => .ok (.ofName s)
  | _ =>
    .faulty [⟨.enumMember, [.name "str-enum[ActionKind]"]⟩, ⟨.stringType, [.name "str"]⟩]

/-- **The shape of an action.** -/
def Action.shape : Check Action :=
  record fun v =>
    Action.mk <$> required v "kind" Kind.shape
      <*> required v "page_alias" string
      <*> withDefault v "selector" none (nullable Selector.shape)
      <*> stringTuple v "frame_path"
      <*> optionalString v "url"
      <*> optionalString v "text"
      <*> optionalTuple v "files"
      <*> optionalTuple v "options"
      <*> optionalString v "key"
      <*> withDefault v "button" "left" string
      <*> withDefault v "click_count" 1 int
      <*> stringTuple v "modifiers"
      <*> withDefault v "signals" [] (listOf .tupleType Signal.shape)
      <*> withDefault v "incomplete_signals" [] (listOf .tupleType SignalKind.shape)
      <*> withDefault v "sequence" (-1) int

end Scribe
