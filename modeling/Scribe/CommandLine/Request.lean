import Scribe.CommandLine.Options
import Scribe.Settings
import Scribe.Text.Path

/-!
# What a command line asks for

There are three commands: `record` records what a person does in a browser, `render` turns a log
file into a program, and `targets` lists the languages. `Scribe.CommandLine.read` reads a command
line.

Options that concern all commands stand before the name of the command. A command line that is in
order and has `--help` asks for help, even if operands are missing.
-/

namespace Scribe.CommandLine

/-- **What `record` is told.** -/
structure RecordOptions where
  /-- The address of the first page. -/
  url : Option String := none
  /-- What is said of the settings. -/
  settings : SettingOptions := {}
  /-- The file for the program. -/
  output : Option String := none
  /-- The file for the log. -/
  log : Option String := none
  /-- The file for the trace. -/
  trace : Option String := none
  /-- The file for the storage. -/
  storage : Option String := none
  /-- The file for the traffic. -/
  archive : Option String := none
  deriving Repr, DecidableEq

/-- **What `render` is told.** -/
structure RenderOptions where
  /-- The log file. -/
  log : String := ""
  /-- The tag of the language. -/
  target : String := "python"
  /-- The file for the program. -/
  output : Option String := none
  deriving Repr, DecidableEq

/-- **The commands.** -/
inductive Command where
  | record (o : RecordOptions)
  | render (o : RenderOptions)
  | targets
  deriving Repr, DecidableEq

/-- **What a command line asks for.** -/
inductive Request where
  | help
  | command (c : Command)
  deriving Repr, DecidableEq

/-- The options that concern all commands. -/
def commonOptions : List (OptionSpec Unit) := [⟨"verbose", some 'v', .flag id⟩]

/-- The options of `record`. -/
def recordOptions : List (OptionSpec RecordOptions) := [
  ⟨"target", some 't',
    .value fun v o => { o with settings := { o.settings with target := some v } }⟩,
  ⟨"output", some 'o', .value fun v o => { o with output := some (Text.normalizedPath v) }⟩,
  ⟨"save-log", none, .value fun v o => { o with log := some (Text.normalizedPath v) }⟩,
  ⟨"save-trace", none, .value fun v o => { o with trace := some (Text.normalizedPath v) }⟩,
  ⟨"save-storage", none, .value fun v o => { o with storage := some (Text.normalizedPath v) }⟩,
  ⟨"save-har", none, .value fun v o => { o with archive := some (Text.normalizedPath v) }⟩,
  ⟨"headed", none, .flag fun o => { o with settings := { o.settings with headed := some true } }⟩,
  ⟨"headless", none,
    .flag fun o => { o with settings := { o.settings with headed := some false } }⟩,
  ⟨"viewport", none, .value fun v o =>
    { o with settings := { o.settings with viewport := some v } }⟩,
  ⟨"test-id-attribute", none, .value fun v o =>
    { o with settings := { o.settings with testIdAttribute := some v } }⟩]

/-- The options of `render`. -/
def renderOptions : List (OptionSpec RenderOptions) := [
  ⟨"target", some 't', .value fun v o => { o with target := v }⟩,
  ⟨"output", some 'o', .value fun v o => { o with output := some (Text.normalizedPath v) }⟩]

/-- An effect beside a mark that it leaves alone. -/
def Effect.beside {σ : Type} : Effect σ → Effect (σ × Bool)
  | .flag apply => .flag fun s => (apply s.1, s.2)
  | .value apply => .value fun v s => (apply v s.1, s.2)

/-- Options with `--help`, which leaves a mark. -/
def withHelp {σ : Type} (specs : List (OptionSpec σ)) : List (OptionSpec (σ × Bool)) :=
  ⟨"help", none, .flag fun s => (s.1, true)⟩ ::
    specs.map fun spec => ⟨spec.long, spec.letter, spec.effect.beside⟩

/-- Reads the arguments of a command; `finish` gives what is asked for if it is not help. -/
def readWith {σ : Type} (specs : List (OptionSpec σ)) (mixed : Bool) (s : σ) (args : List String)
    (finish : σ → List String → Except UsageError Request) : Except UsageError Request :=
  match readArguments (withHelp specs) mixed (s, false) args with
  | .error e => .error e
  | .ok a => if a.options.2 then .ok .help else finish a.options.1 a.operands

/-- Reads the arguments of `record`. -/
def readRecord (args : List String) : Except UsageError Request :=
  readWith recordOptions true {} args fun o operands =>
    match operands with
    | [] => .ok (.command (.record o))
    | [url] => .ok (.command (.record { o with url := some url }))
    | _ :: extra => .error (.extraOperands extra)

/-- Reads the arguments of `render`. -/
def readRender (args : List String) : Except UsageError Request :=
  readWith renderOptions true {} args fun o operands =>
    match operands with
    | [] => .error .missingOperand
    | [log] => .ok (.command (.render { o with log := Text.normalizedPath log }))
    | _ :: extra => .error (.extraOperands extra)

/-- Reads the arguments of `targets`. -/
def readTargets (args : List String) : Except UsageError Request :=
  readWith [] true () args fun _ operands =>
    match operands with
    | [] => .ok (.command .targets)
    | extra => .error (.extraOperands extra)

/-- Reads the name of a command and its arguments. -/
def readCommand : List String → Except UsageError Request
  | [] => .error .missingCommand
  | "record" :: args => readRecord args
  | "render" :: args => readRender args
  | "targets" :: args => readTargets args
  | name :: _ => .error (.unknownCommand name)

/-- **Reads a command line.** -/
def read (args : List String) : Except UsageError Request :=
  if args.isEmpty then .error .noArguments
  else readWith commonOptions false () args fun _ operands => readCommand operands

end Scribe.CommandLine
