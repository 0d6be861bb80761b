import Scribe.CommandLine.Folder
import Scribe.CommandLine.Request
import Scribe.LogFile
import Scribe.Recording

/-!
# Running a command

**What a command does**: it writes to the two outputs and to files, and ends with an exit code
(`Scribe.CommandLine.Outcome`). All that it depends on is given to it: the environment, the folder,
the engine, and what the pages do (`Scribe.CommandLine.Surroundings`).
-/

namespace Scribe.CommandLine

open Program

/-- **What a command depends on.** -/
structure Surroundings where
  /-- The variables of the environment. -/
  environment : Environment := []
  /-- The files. -/
  folder : Folder := {}
  /-- The browser engine. -/
  engine : Engine := .sound
  /-- What the pages do in a recording. -/
  script : List ScriptStep := []

/-- **Why a command breaks off** without a word. -/
inductive Crash where
  /-- The log file has a fault that is not reported. -/
  | log (f : LogFile.Fault)
  /-- A file could not be written. -/
  | write (f : WriteFault)
  deriving Repr, DecidableEq

/-- **What a command did.** -/
structure Outcome where
  /-- The exit code. -/
  exitCode : Nat := 0
  /-- What it wrote to the standard output. -/
  out : String := ""
  /-- The lines that it wrote to the standard error output. -/
  err : List String := []
  /-- The folder afterwards. -/
  folder : Folder := {}
  /-- Why it broke off, if it did. -/
  crash : Option Crash := none
  /-- The calls to the engine. -/
  calls : List Call := []

/-- The exit code of a command that the person interrupted. -/
def interruptedCode : Nat := 130

/-- The exit code of a command that failed. -/
def failedCode : Nat := 1

/-- The exit code of a command line that is not in order. -/
def usageCode : Nat := 2

namespace Outcome

/-- One more line of the standard error output. -/
def say (o : Outcome) (line : String) : Outcome :=
  { o with err := o.err ++ [line] }

/-- The end of a command that failed. -/
def failWith (o : Outcome) (line : String) : Outcome :=
  { o.say line with exitCode := failedCode }

/-- A file is written, and the command goes on if that could be done. -/
def writing (o : Outcome) (path text : String) (go : Outcome → Outcome) : Outcome :=
  match o.folder.write path text with
  | .ok folder => go { o with folder := folder }
  | .error f => { o with exitCode := failedCode, crash := some (.write f) }

/-- A program goes to its file, with a line that says so, or to the standard output. -/
def deliver (o : Outcome) (output : Option String) (text : String) (line : String → String)
    (go : Outcome → Outcome) : Outcome :=
  match output with
  | none => go { o with out := o.out ++ text }
  | some path => o.writing path text fun o => go (o.say (line path))

end Outcome

/-! ### The list of languages -/

/-- A text with blanks after it up to a width. -/
def padded (width : Nat) (s : String) : String :=
  s ++ String.ofList (List.replicate (width - s.length) ' ')

/-- The line of a language. -/
def targetLine (e : Emitter) : String :=
  s!"  {padded 16 e.tag} {e.name}\n"

/-- **Lists the languages.** -/
def runTargets (w : Surroundings) : Outcome :=
  let lines := Catalog.standard.emitters.map targetLine
  { out := String.join lines ++ s!"\n合計: {lines.length} 言語\n", folder := w.folder }

/-! ### Rendering a log file -/

/-- The end of a command that could not read its log file. -/
def failedLog (o : Outcome) (path : String) (f : LogFile.Fault) : Outcome :=
  match f.heading? with
  | some heading => o.failWith s!"エラー: {heading}: {path}"
  | none => { o with exitCode := failedCode, crash := some (.log f) }

/-- **Turns a log file into a program.** The language is looked up first. -/
def runRender (o : RenderOptions) (w : Surroundings) : Outcome :=
  let start : Outcome := { folder := w.folder }
  match Catalog.standard.get o.target with
  | .error e => start.failWith s!"エラー: {e.message}"
  | .ok emitter =>
    match LogFile.read (w.folder.read? o.log) with
    | .error f => failedLog start o.log f
    | .ok (actions, aliases) =>
      start.deliver o.output (emitter.render actions aliases) (fun path => s!"生成しました: {path}") id

/-! ### Recording -/

/-- The settings of a recording: the environment first, the options after it. -/
def recordSettings (o : RecordOptions) (env : Environment) : Settings :=
  ((Settings.ofEnvironment env).1.override o.settings).1

/-- What is asked of the browser. -/
def launchOptions (s : Settings) (o : RecordOptions) : LaunchOptions where
  headed := s.headed
  width := s.viewportWidth
  height := s.viewportHeight
  trace := o.trace
  storage := o.storage
  archive := o.archive

/-- A new session with settings, at time zero. -/
def newSession? (s : Settings) : Option (Session Float) :=
  Session.new? s.testIdAttribute (secondsOf s.signalWindow) (secondsOf s.syncTimeout) (.still 0.0)

/-- The program of a session in a language. -/
def programOf (s : Session Float) (tag : String) : String :=
  (s.output.source? tag).elim "" (·.text)

/-- The folder after a session has written its program whenever that changed. -/
def folderDuring (folder : Folder) (output : Option String) (s : Session Float) (tag : String) :
    Folder :=
  match output with
  | none => folder
  | some path =>
    if s.changes = 0 then folder
    else
      match folder.write path (programOf s tag) with
      | .ok folder => folder
      | .error _ => folder

/-- The end of a recording whose session is at hand: its program and its log are written. -/
def keepRecording (start : Outcome) (o : RecordOptions) (s : Session Float) (tag : String)
    (interrupted : Bool) : Outcome :=
  let start := if interrupted then start.say "記録が中断されました。" else start
  let start :=
    match s.failure with
    | some f => start.say s!"エラー: 記録セッションが異常終了しました: {f.message}"
    | none => start
  start.deliver o.output (programOf s tag)
    (fun path => s!"記録完了: {path} ({s.log.actions.length} 件の操作)") fun done =>
      let close (done : Outcome) : Outcome := { done with
        exitCode :=
          if interrupted then interruptedCode else if s.failure.isSome then failedCode else 0 }
      match o.log with
      | none => close done
      | some path =>
        done.writing path (LogFile.write s.log.actions s.names.table) fun done =>
          close (done.say s!"アクションログを保存しました: {path}")

/-- **Records** what a person does, and writes the program and the log. -/
def runRecord (o : RecordOptions) (w : Surroundings) : Outcome :=
  let settings := recordSettings o w.environment
  let start : Outcome := { folder := w.folder }
  match Catalog.standard.get settings.target with
  | .error e => start.failWith s!"エラー: {e.message}"
  | .ok emitter =>
    let start := (start.say s!"出力言語: {emitter.name}").say
      "ブラウザを閉じるか Ctrl+C で記録が終了します。"
    match newSession? settings with
    | none => start.failWith s!"エラー: {Coalescer.windowMessage}"
    | some session =>
      let recording : Recording :=
        { session := session, launcher := { options := launchOptions settings o } }
      let (r, ending) := recording.run w.engine o.url w.script
      let start := { start with
        err := start.err ++ r.session.warnings.map fun message => s!"警告: {message}"
        folder := folderDuring start.folder o.output r.session settings.target
        calls := r.launcher.calls }
      match ending with
      | .failed f => start.failWith ("エラー: " ++ f.message?.getD "")
      | .interrupted => keepRecording start o r.session settings.target true
      | .closed => keepRecording start o r.session settings.target false

/-- **Runs a command.** -/
def run (c : Command) (w : Surroundings) : Outcome :=
  match c with
  | .record o => runRecord o w
  | .render o => runRender o w
  | .targets => runTargets w

end Scribe.CommandLine
