import Scribe.Browser.Engine

/-!
# Launching a browser for a recording

**A launcher** acquires an engine, a browser and a context, sets a watch over the context, and opens
the first page. When it closes, it saves what was asked for and gives everything back.

* `Scribe.Launcher.launch` – acquires; if something fails, what was acquired is given back;
* `Scribe.Launcher.close` – saves and gives back; it may be called any number of times;
* `Scribe.Launcher.giveBack` – closes the context, the browser and the engine, in this order, up to
  the first of the three that fails.

An error of the engine is reported and dealt with. An interruption is not: it goes through, and
leaves the launcher where it was, so that it can still be closed.
-/

namespace Scribe

/-- **The phases of a launcher.** -/
inductive LauncherPhase where
  | idle
  | launching
  | active
  | closing
  | closed
  deriving Repr, DecidableEq

/-- The word for a phase. -/
def LauncherPhase.word : LauncherPhase → String
  | idle => "idle"
  | launching => "launching"
  | active => "active"
  | closing => "closing"
  | closed => "closed"

/-- **Why a launcher or a watch did not do what it was asked.** -/
inductive BrowserFault where
  /-- A launcher that is not idle cannot launch. -/
  | notIdle (p : LauncherPhase)
  /-- A watch cannot be set over a second context. -/
  | alreadyAttached
  /-- A call of the engine failed. -/
  | call (f : CallFailure)
  deriving Repr, DecidableEq

/-- A fault in words, unless it is an interruption. -/
def BrowserFault.message? : BrowserFault → Option String
  | notIdle p => some s!"ブラウザは {p.word} 状態のため起動できません"
  | alreadyAttached => some "PlaywrightBridge は既に BrowserContext に接続されています"
  | call (.error message) => some message
  | call .interrupt => none

/-- **What a launcher reports** of errors that it dealt with. -/
inductive LauncherReport where
  | launchFailed
  | traceLost
  | storageLost
  | closeFailed
  deriving Repr, DecidableEq

/-- A report in words. -/
def LauncherReport.message : LauncherReport → String
  | launchFailed => "ブラウザの起動に失敗しました"
  | traceLost => "トレースの保存に失敗しました"
  | storageLost => "storage state の保存に失敗しました"
  | closeFailed => "ブラウザの終了中にエラーが発生しました"

/-- **What is asked of a browser.** -/
structure LaunchOptions where
  /-- Whether it shows its window. -/
  headed : Bool := true
  /-- The width of the pages. -/
  width : Int := 1280
  /-- The height of the pages. -/
  height : Int := 720
  /-- The file for the trace, if one is kept. -/
  trace : Option String := none
  /-- The file for the storage, if it is saved. -/
  storage : Option String := none
  /-- The file for the traffic, if it is recorded. -/
  archive : Option String := none
  deriving Repr, DecidableEq

/-- **A launcher.** -/
structure Launcher where
  /-- What is asked of the browser. -/
  options : LaunchOptions
  /-- The phase. -/
  phase : LauncherPhase := .idle
  /-- Whether it holds a started engine. -/
  holdsEngine : Bool := false
  /-- Whether it holds a browser. -/
  holdsBrowser : Bool := false
  /-- Whether it holds a context. -/
  holdsContext : Bool := false
  /-- The watch over the context of the last launch that came so far. -/
  watch : Option Watch := none
  /-- The calls to the engine so far. -/
  calls : List Call := []
  /-- The reports so far. -/
  reports : List LauncherReport := []
  /-- The events that the watch has given while launching, not handed on yet. -/
  events : List Event := []

/-- The name under which pages report. -/
def bindingName : String := "__recgenReport"

/-- The file of the script that runs in every page. -/
def pageScript : String := "injected.js"

/-- **What a launcher does** with an engine: it may end in a fault, and the launcher is as it was
left then. -/
abbrev LauncherM := ExceptT BrowserFault (StateM Launcher)

namespace Launcher

/-- A call to the engine. -/
def call (e : Engine) (c : Call) : LauncherM Unit := do
  modify fun l => { l with calls := l.calls ++ [c] }
  match e.reply c with
  | none => pure ()
  | some f => throw (.call f)

/-- An action whose errors are dealt with; interruptions go through. -/
def guarded (act : LauncherM Unit) (onError : LauncherM Unit) : LauncherM Unit :=
  tryCatch act fun
    | .call .interrupt => throw (.call .interrupt)
    | _ => onError

/-- A report. -/
def report (r : LauncherReport) : LauncherM Unit :=
  modify fun l => { l with reports := l.reports ++ [r] }

/-- The watch takes a step that gives events, if there is one. -/
def withWatch (act : Watch → Watch × List Event) : LauncherM Unit :=
  modify fun l =>
    match l.watch with
    | none => l
    | some w =>
      let (w, events) := act w
      { l with watch := some w, events := l.events ++ events }

/-- **Sets the watch** over a context with the given open pages. An error of a script in an open
page does no harm. -/
def attach (e : Engine) (now : Float) (pages : List (PageHandle × String)) : LauncherM Unit := do
  if (← get).watch.any (·.attached) then throw .alreadyAttached
  withWatch fun w => ({ w with attached := true }, [])
  call e (.exposeBinding bindingName)
  call e (.addScript pageScript)
  call e (.listen "page")
  withWatch fun w => ({ w with listening := true }, [])
  pages.forM fun (h, url) => do
    withWatch fun w => w.meet now h url
    guarded (call e (.evaluate h)) (pure ())

/-- What the launcher holds is forgotten. -/
def letGo : LauncherM Unit :=
  modify fun l => { l with holdsEngine := false, holdsBrowser := false, holdsContext := false }

/-- Closes what is held: the context, the browser and the engine, in this order. -/
def closeHeld (e : Engine) : LauncherM Unit := do
  if (← get).holdsContext then call e .closeContext
  if (← get).holdsBrowser then call e .closeBrowser
  if (← get).holdsEngine && e.canStop then call e .stop

/-- **Gives back** what is held. Whatever happens, nothing is held afterwards. -/
def giveBack (e : Engine) : LauncherM Unit := do
  tryCatch (guarded (closeHeld e) (report .closeFailed)) fun f => do
    letGo
    throw f
  letGo

/-- Acquires an engine, a browser and a context, sets a new watch, and opens the first page, which
is `first` with its address. No other page has appeared since the watch was set. -/
def acquire (e : Engine) (now : Float) (first : PageHandle × String)
    (pages : List (PageHandle × String)) : LauncherM Unit := do
  let o := (← get).options
  call e .start
  modify fun l => { l with holdsEngine := true }
  call e (.launch !o.headed)
  modify fun l => { l with holdsBrowser := true }
  call e (.newContext o.width o.height o.archive)
  modify fun l => { l with holdsContext := true }
  if o.trace.isSome then call e .startTrace
  modify fun l => { l with watch := some {} }
  attach e now pages
  call e .newPage
  withWatch fun w => ((w.hear now (.page first.1)).1, [])
  withWatch fun w => w.turn now fun _ => first.2

/-- **Launches** a browser. If an error of the engine prevents it, everything is given back and the
launcher is idle again. -/
def launch (e : Engine) (now : Float) (first : PageHandle × String)
    (pages : List (PageHandle × String)) : LauncherM Unit := do
  let p := (← get).phase
  if p != .idle then throw (.notIdle p)
  modify fun l => { l with phase := .launching }
  tryCatch (acquire e now first pages) fun
    | .call .interrupt => throw (.call .interrupt)
    | f => do
      report .launchFailed
      giveBack e
      modify fun l => { l with phase := .idle }
      throw f
  modify fun l => { l with phase := .active }

/-- Saves what was asked for. -/
def save (e : Engine) : LauncherM Unit := do
  let o := (← get).options
  if let some path := o.trace then
    guarded (call e (.stopTrace path)) (report .traceLost)
  if let some path := o.storage then
    guarded (call e (.saveStorage path)) (report .storageLost)

/-- **Closes** the browser. A launcher that is idle, closing or closed has nothing to close. -/
def close (e : Engine) : LauncherM Unit := do
  let l ← get
  if l.phase == .launching || l.phase == .active then
    modify fun l => { l with phase := .closing }
    if l.holdsContext then save e
    giveBack e
    modify fun l => { l with phase := .closed }

end Launcher

end Scribe
