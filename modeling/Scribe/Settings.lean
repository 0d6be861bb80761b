import Scribe.Text.Case
import Scribe.Text.Decimal

/-!
# Settings

**The settings** of a recording. They start from defaults, which the environment overrides, and the
command line after it (`Scribe.Settings.ofEnvironment`, `Scribe.Settings.override`). A setting that
cannot be read is left as it was, and a warning says so.
-/

namespace Scribe

/-- **The settings** of a recording. -/
structure Settings where
  /-- The tag of the language that is shown. -/
  target : String := "python"
  /-- How long an action receives signals, in milliseconds. -/
  signalWindow : Int := 500
  /-- How long an expected signal is waited for, in milliseconds. -/
  syncTimeout : Int := 5000
  /-- The attribute that identifies elements for tests. -/
  testIdAttribute : String := "data-testid"
  /-- Whether the browser shows its window. -/
  headed : Bool := true
  /-- The width of the page. -/
  viewportWidth : Int := 1280
  /-- The height of the page. -/
  viewportHeight : Int := 720
  deriving Repr, DecidableEq

/-- **What is wrong** with a setting. -/
inductive SettingWarning where
  /-- The variable holds no number. -/
  | unreadable (variableName : String) (raw : String)
  /-- The variable holds a negative number. -/
  | negative (variableName : String) (raw : String)
  /-- The option is not a width, an `x` and a height. -/
  | viewport (raw : String)
  deriving Repr, DecidableEq

/-- A warning in words. -/
def SettingWarning.message : SettingWarning → String
  | unreadable variableName raw => s!"{variableName} の値が不正です: {raw}"
  | negative variableName raw => s!"{variableName} には 0 以上を指定してください: {raw}"
  | viewport raw => s!"--viewport の形式が不正です: {raw} (WIDTHxHEIGHT)"

/-- Milliseconds in seconds. -/
def secondsOf (milliseconds : Int) : Float :=
  let x := Text.Decimal.toFloat ⟨milliseconds.natAbs, -3⟩
  if milliseconds < 0 then -x else x

/-- The variables of the environment, by name. -/
abbrev Environment := List (String × String)

/-- Whether a word says yes. -/
def saysYes (word : String) : Bool :=
  ["true", "1", "yes"].contains (Text.lowered word)

/-- A number from zero on, or what is wrong with it. -/
def readNonNegative (name raw : String) : Except SettingWarning Int :=
  match Text.readInt? raw.toList with
  | none => .error (.unreadable name raw)
  | some n => if n < 0 then .error (.negative name raw) else .ok n

/-- What the command line says about the settings. -/
structure SettingOptions where
  target : Option String := none
  testIdAttribute : Option String := none
  headed : Option Bool := none
  viewport : Option String := none
  deriving Repr, DecidableEq

namespace Settings

/-- The numeric variables: each with the setting that it overrides. -/
def numericVariables : List (String × (Settings → Int → Settings)) := [
  ("RECGEN_SIGNAL_WINDOW_MS", fun s n => { s with signalWindow := n }),
  ("RECGEN_SYNC_TIMEOUT_MS", fun s n => { s with syncTimeout := n }),
  ("RECGEN_VIEWPORT_WIDTH", fun s n => { s with viewportWidth := n }),
  ("RECGEN_VIEWPORT_HEIGHT", fun s n => { s with viewportHeight := n })]

/-- The variables that the settings look at. -/
def variableNames : List String :=
  ["RECGEN_TARGET", "RECGEN_TEST_ID_ATTRIBUTE", "RECGEN_HEADED"] ++ numericVariables.map (·.1)

/-- One numeric variable read into the settings. -/
def readNumeric (env : Environment) (state : Settings × List SettingWarning)
    (field : String × (Settings → Int → Settings)) : Settings × List SettingWarning :=
  match env.lookup field.1 with
  | none => state
  | some raw =>
    match readNonNegative field.1 raw with
    | .ok n => (field.2 state.1 n, state.2)
    | .error w => (state.1, state.2 ++ [w])

/-- **The settings of an environment**, with the warnings in order. -/
def ofEnvironment (env : Environment) : Settings × List SettingWarning :=
  let s : Settings := {}
  let s := (env.lookup "RECGEN_TARGET").elim s fun t => { s with target := t }
  let s :=
    match env.lookup "RECGEN_TEST_ID_ATTRIBUTE" with
    | some name => if name.isEmpty then s else { s with testIdAttribute := name }
    | none => s
  let s := (env.lookup "RECGEN_HEADED").elim s fun w => { s with headed := saysYes w }
  numericVariables.foldl (readNumeric env) (s, [])

/-- The viewport from a width, an `x` in either case and a height. The width is taken over before
the height is read. -/
def readViewport (s : Settings) (raw : String) : Settings × List SettingWarning :=
  match (Text.lower raw.toList).splitOn 'x' with
  | [w, h] =>
    match Text.readInt? w, Text.readInt? h with
    | some w, some h => ({ s with viewportWidth := w, viewportHeight := h }, [])
    | some w, none => ({ s with viewportWidth := w }, [.viewport raw])
    | none, _ => (s, [.viewport raw])
  | _ => (s, [.viewport raw])

/-- **The settings under the options of the command line.** -/
def override (s : Settings) (o : SettingOptions) : Settings × List SettingWarning :=
  let s := { s with
    target := o.target.getD s.target
    testIdAttribute := o.testIdAttribute.getD s.testIdAttribute
    headed := o.headed.getD s.headed }
  match o.viewport with
  | some raw => s.readViewport raw
  | none => (s, [])

end Settings

end Scribe
