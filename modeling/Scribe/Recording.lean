import Scribe.Browser.Launcher
import Scribe.Browser.Stage
import Scribe.Session

/-!
# Recordings

**A recording** joins a session, a launcher and the pages of a browser: what the watch of the
launcher gives is posted to the session, and a session that takes no more events leaves them out.

`Scribe.Recording.run` is a whole recording. The session starts and the browser is launched; the
first page goes to an address, if one is given; the pages do what a script says; and the recording
waits until no page is open or the person interrupts it, looking twice a second. Then the browser is
closed, and the session handles what is left and stops.
-/

namespace Scribe

/-- **A recording.** -/
structure Recording where
  /-- The session that the events go to. -/
  session : Session Float
  /-- The launcher of the browser. -/
  launcher : Launcher
  /-- The pages of the browser. -/
  stage : Stage := {}
  /-- The events that the session has taken, in order. -/
  posted : List Event := []
  /-- The number of messages of pages that were refused. -/
  refused : Nat := 0
  /-- The number of dialogs that were dismissed. -/
  dismissed : Nat := 0

/-- **Why a step of a script cannot be played.** -/
inductive StepFault where
  /-- There has been no page of that name. -/
  | unknownPage (h : PageHandle)
  /-- The sender of a message cannot be looked up. -/
  | unnameable
  deriving Repr, DecidableEq

/-- **How a recording ends.** -/
inductive RecordingEnd where
  /-- No page is open any more. -/
  | closed
  /-- The person interrupted it. -/
  | interrupted
  /-- The browser could not be launched, or not be sent to the address. -/
  | failed (f : BrowserFault)
  deriving Repr, DecidableEq

namespace Recording

/-- The first page. -/
def mainPage : PageHandle := "main"

/-- The present time. -/
def now (r : Recording) : Float :=
  r.session.clock.now

/-- Posts an event, unless the session takes none. -/
def postOne (r : Recording) (e : Event) : Recording :=
  match r.session.post (some e) with
  | .ok s => { r with session := s, posted := r.posted ++ [e] }
  | .error _ => r

/-- **Posts events** as far as the session takes them. -/
def post (r : Recording) (events : List Event) : Recording :=
  events.foldl postOne r

/-- **The launcher acts**, and the events that this gives are posted. -/
def drive (r : Recording) (act : LauncherM Unit) : Except BrowserFault Unit × Recording :=
  let (result, l) := act.run.run r.launcher
  (result, { r with launcher := { l with events := [] } }.post l.events)

/-- **A notice** of the browser is heard, if a watch was set. The second part says whether its
sender could be looked up. -/
def hear (r : Recording) (n : Notice) : Recording × Bool :=
  match r.launcher.watch with
  | none => (r, true)
  | some w =>
    let (w, reaction) := w.hear r.now n
    let r := { r with
      launcher := { r.launcher with watch := some w }
      refused := r.refused + reaction.refused.toNat
      dismissed := r.dismissed + reaction.dismissed.toNat }
    (r.post reaction.events, !reaction.unnameable)

/-- **A turn**: the watch makes its announcements, and the session handles its queue. -/
def turn (r : Recording) : Recording :=
  let r := (r.drive (Launcher.withWatch fun w => w.turn r.now r.stage.urlOf)).2
  { r with session := r.session.settle }

/-- Some seconds go by, and what falls due at the end of them is done. -/
def wait (r : Recording) (seconds : Float) : Recording :=
  let r := r.turn
  { r with session := r.session.advanceTo (r.now + seconds) }

/-- Time goes by up to a target. What falls due there is left for what comes next. -/
def waitBefore (r : Recording) (target : Float) : Recording :=
  let r := r.turn
  { r with session := r.session.advanceBefore target }

/-- The pages take a step of the script. -/
def enact (r : Recording) (step : ScriptStep) : Recording × Bool :=
  let (stage, notices) := r.stage.play step
  notices.foldl (fun (r, known) n => let (r, k) := r.hear n; (r, known && k))
    ({ r with stage := stage }, true)

/-- **A step of a script is performed.** -/
def perform (r : Recording) (step : ScriptStep) : Recording × Option StepFault :=
  match r.stage.missing? step with
  | some h => (r, some (.unknownPage h))
  | none =>
    match step with
    | .turn => (r.turn, none)
    | .wait seconds => (r.wait seconds, none)
    | step =>
      let (r, known) := r.enact step
      (r, if known then none else some .unnameable)

/-- **Sets the watch** over pages that are open already. -/
def attach (r : Recording) (e : Engine) (pages : List (PageHandle × String)) :
    Except BrowserFault Unit × Recording :=
  let stage := pages.foldl (fun s p => s.add p.1 (some p.2)) r.stage
  { r with stage := stage }.drive (Launcher.attach e r.now stage.opened)

/-- **Launches the browser** with its first page. -/
def launch (r : Recording) (e : Engine) : Except BrowserFault Unit × Recording :=
  let (result, r) := r.drive (Launcher.launch e r.now (mainPage, blankPage) r.stage.opened)
  match result with
  | .ok () => (.ok (), { r with stage := r.stage.add mainPage none })
  | .error f => (.error f, r)

/-- **Closes the browser.** -/
def close (r : Recording) (e : Engine) : Except BrowserFault Unit × Recording :=
  r.drive (Launcher.close e)

/-- **Sends the first page** to an address. -/
def goto (r : Recording) (e : Engine) (url : String) : Except BrowserFault Unit × Recording :=
  let (result, r) := r.drive (Launcher.call e (.goto url))
  match result with
  | .ok () => (.ok (), (r.turn.perform (.navigate mainPage url true)).1)
  | .error f => (.error f, r)

/-- **Stops the session.** One that was started has to wait for its end, and what is scheduled takes
its turn then. -/
def stop (r : Recording) : Recording :=
  let r :=
    if r.session.started then
      { r with launcher := { r.launcher with
          watch := r.launcher.watch.map fun w => (w.turn r.now r.stage.urlOf).1 } }
    else r
  { r with session := r.session.stop }

/-! ### A whole recording -/

/-- **The pages play a script**, up to its end or until no page is open. After an interruption they
still play what comes before the next wait. The second part says whether there was one. -/
def play (r : Recording) (interrupted : Bool) : List ScriptStep → Recording × Bool
  | [] => (r, interrupted)
  | step :: rest =>
    match step, interrupted with
    | .wait _, true => (r, true)
    | .wait seconds, false => play (r.waitBefore (r.now + seconds)) false rest
    | .interrupt, _ => play r true rest
    | step, interrupted =>
      let r := (r.perform step).1
      if r.stage.openPages.isEmpty then (r, interrupted) else play r interrupted rest

/-- The time of the first look at a time or after it, when there are two a second. -/
def nextLook (time : Float) : Float :=
  (time * 2.0).ceil / 2.0

/-- **The recording waits** for the look that finds no page open. -/
def awaitLook (r : Recording) : Recording :=
  let look := nextLook r.now
  if look == r.now then r else r.waitBefore look

/-- **The browser is closed and the session stops**, unless closing is interrupted. -/
def finish (r : Recording) (e : Engine) (ending : RecordingEnd) : Recording × RecordingEnd :=
  match r.close e with
  | (.ok (), r) => (r.turn.stop, ending)
  | (.error (.call .interrupt), r) => (r, .interrupted)
  | (.error f, r) => (r.turn.stop, .failed f)

/-- How a recording ends after a fault. -/
def endOf : BrowserFault → RecordingEnd
  | .call .interrupt => .interrupted
  | f => .failed f

/-- The browser is launched and its first page sent to an address, if one is given. -/
def openFirst (r : Recording) (e : Engine) (url : Option String) :
    Except BrowserFault Unit × Recording :=
  match r.launch e, url.filter (!·.isEmpty) with
  | (.ok (), r), some url => r.goto e url
  | other, _ => other

/-- **A whole recording.** The pages play the script from one second after the launch on. -/
def run (r : Recording) (e : Engine) (url : Option String) (script : List ScriptStep) :
    Recording × RecordingEnd :=
  let r :=
    match r.session.start with
    | .ok s => { r with session := s }
    | .error _ => r
  match r.openFirst e url with
  | (.error f, r) => r.finish e (endOf f)
  | (.ok (), r) =>
    match (r.waitBefore (r.now + 1.0)).play false script with
    | (r, true) => r.turn.finish e .interrupted
    | (r, false) => r.awaitLook.finish e .closed

end Recording

end Scribe
