import Scribe.ActionLog
import Scribe.Coalescer
import Scribe.Observer
import Scribe.Output
import Scribe.Settings

/-!
# Recording sessions

**A session** takes events into a queue, and one consumer handles them one after the other: the
observer turns an event into candidates, the coalescer settles actions, and what is settled is given
aliases, appended to the log, and put into the output. Between events the consumer waits for the
next deadline of the coalescer.

A session that was never started handles its events when it is stopped. Something that goes wrong
makes the session fail; it keeps what it has and takes no more.

The thread that starts the session puts what it posts into the queue. What another thread posts is
only scheduled to be put there, once the session was started, and comes into the queue later
(`Scribe.Session.land`).

* `Scribe.Session.post`, `Scribe.Session.postElsewhere`, `Scribe.Session.start`,
  `Scribe.Session.drain`, `Scribe.Session.stop` – what the outside calls;
* `Scribe.Session.consume`, `Scribe.Session.timeOut` – the steps of the consumer;
* `Scribe.Session.settle`, `Scribe.Session.advanceTo` – the consumer at work at one time, and over a
  stretch of time.
-/

namespace Scribe

/-- **The states of a session.** -/
inductive SessionState where
  | idle
  | recording
  | stopping
  | stopped
  | failed
  deriving Repr, DecidableEq

/-- The word for a state. -/
def SessionState.word : SessionState → String
  | idle => "idle"
  | recording => "recording"
  | stopping => "stopping"
  | stopped => "stopped"
  | failed => "failed"

/-- Whether a session in this state takes no events. -/
def SessionState.isHalted : SessionState → Bool
  | stopping | stopped | failed => true
  | idle | recording => false

/-- **A call that a session refuses**, by its state. -/
inductive Halted where
  /-- It takes no events. -/
  | post (s : SessionState)
  /-- It cannot be started. -/
  | start (s : SessionState)
  deriving Repr, DecidableEq

/-- A refusal in words. -/
def Halted.message : Halted → String
  | post s => s!"セッションは {s.word} 状態のためイベントを受け付けません"
  | start s => s!"セッションは {s.word} 状態のため起動できません"

/-- **Why a session failed.** -/
inductive SessionFailure where
  /-- What was posted is no event. -/
  | notAnEvent
  /-- The log refused an action. -/
  | violation (v : LogViolation)
  /-- The coalescer refused a candidate. -/
  | refused
  deriving Repr, DecidableEq

/-- A failure in words. -/
def SessionFailure.message : SessionFailure → String
  | notAnEvent => "イベントではありません"
  | violation v => v.message
  | refused => "未知の候補です: None"

/-- **How a clock goes on** from reading to reading. -/
inductive Pace (τ : Type) where
  /-- Each reading shows so much more than the time before. -/
  | steps (d : τ)
  /-- The times that the next readings show. After the last of them the clock stands still. -/
  | through (times : List τ)
  deriving Repr, DecidableEq

/-- A clock without a step stands still. -/
instance {τ : Type} : Coe (Option τ) (Pace τ) where
  coe
    | none => .through []
    | some d => .steps d

/-- **A clock**: the present time, and how the clock goes on. What counts as a reading is that an
event is handled or a deadline met; to look how long to wait is none. -/
structure Clock (τ : Type) where
  now : τ
  pace : Pace τ := .through []
  deriving Repr, DecidableEq

/-- A clock that stands still. -/
def Clock.still {τ : Type} (now : τ) : Clock τ :=
  { now := now }

/-- A reading of the clock. -/
def Clock.read [Add τ] (c : Clock τ) : τ × Clock τ :=
  match c.pace with
  | .steps d => (c.now + d, { c with now := c.now + d })
  | .through [] => (c.now, c)
  | .through (t :: rest) => (t, { now := t, pace := .through rest })

/-- **What is queued**: something that was posted, or the end. -/
inductive QueueItem where
  /-- An event, or something else that was posted. -/
  | posted (e : Option Event)
  | stop

/-- **A session.** -/
structure Session (τ : Type) where
  /-- The clock that the session reads. -/
  clock : Clock τ
  /-- What is known of the pages. -/
  observer : Observer
  /-- What is not settled yet. -/
  coalescer : Coalescer τ
  /-- The aliases given out so far. -/
  names : PageNames := {}
  /-- The committed actions. -/
  log : ActionLog := {}
  /-- The generated programs. -/
  output : Output
  /-- The state. -/
  state : SessionState := .idle
  /-- Whether the session was started. -/
  started : Bool := false
  /-- Whether the consumer is at work. -/
  consuming : Bool := false
  /-- What was posted and has not been handled. -/
  queue : List QueueItem := []
  /-- What other threads have posted and is still to be put into the queue. -/
  scheduled : List (Option Event) := []
  /-- The warnings so far. -/
  warnings : List String := []
  /-- Why the session failed, if it did. -/
  failure : Option SessionFailure := none
  /-- How often the output changed. -/
  changes : Nat := 0

namespace Session

variable {τ : Type}

/-! ### Committing -/

/-- Appends settled actions to the log under their aliases, up to one that the log refuses. -/
def commit (names : PageNames) (log : ActionLog) :
    List Action → PageNames × ActionLog × Option LogViolation
  | [] => (names, log, none)
  | a :: rest =>
    let (bound, names) := names.bind a
    match log.append bound with
    | .error v => (names, log, some v)
    | .ok (_, log) => commit names log rest

/-- The session that has failed. The consumer stops. -/
def fail (s : Session τ) (f : SessionFailure) : Session τ :=
  { s with state := .failed, failure := some f, consuming := false }

/-- The output after the log has changed. -/
def refresh (s : Session τ) : Session τ :=
  let (output, u) := s.output.update s.log.actions s.names.table
  { s with output := output, changes := s.changes + u.changed.toNat }

/-- **Publishes** what was settled: it goes into the log and the output. -/
def publish (s : Session τ) (committed : List Action) : Session τ :=
  if committed.isEmpty then s
  else
    match commit s.names s.log committed with
    | (names, log, some v) => { s with names := names, log := log }.fail (.violation v)
    | (names, log, none) => { s with names := names, log := log }.refresh

/-- The session after the coalescer was called. -/
def afterYield (s : Session τ) (m : Coalescer τ) (y : Yield) : Session τ :=
  let s := { s with
    coalescer := m, warnings := s.warnings ++ y.missed.map MissedSignal.message }
  if y.refused then s.fail .refused else s.publish y.committed

section

variable [Add τ] [LE τ] [DecidableLE τ] [LT τ] [DecidableLT τ]

/-- Feeds candidates that arrive at one time, and lets that time go by. -/
def feedAll (m : Coalescer τ) (now : τ) : List Candidate → Coalescer τ × Yield
  | [] => m.tick now
  | c :: rest =>
    let (m, y) := m.feed c now
    if y.refused then (m, y)
    else
      let (m, z) := feedAll m now rest
      (m, y ++ z)

/-- **Handles an event** at the time that the clock shows. -/
def handle (s : Session τ) (e : Option Event) : Session τ :=
  let (now, clock) := s.clock.read
  let s := { s with clock := clock }
  match e with
  | none => s.fail .notAnEvent
  | some e =>
    let (candidates, observer) := s.observer.observe e
    let (m, y) := feedAll s.coalescer now candidates
    { s with observer := observer }.afterYield m y

/-! ### The consumer -/

/-- **The consumer takes an item** from the queue and handles it; the end of the queue ends it. -/
def consume (s : Session τ) : Session τ :=
  if !s.consuming then s
  else
    match s.queue with
    | [] => s
    | .stop :: rest => { s with queue := rest, consuming := false }
    | .posted e :: rest => { s with queue := rest }.handle e

/-- **The consumer's wait is over**: it lets the time that the clock shows go by. -/
def timeOut (s : Session τ) : Session τ :=
  if !s.consuming then s
  else
    let (now, clock) := s.clock.read
    let (m, y) := s.coalescer.tick now
    { s with clock := clock }.afterYield m y

/-- The consumer takes items as often as told. -/
def consumeTimes : Nat → Session τ → Session τ
  | 0, s => s
  | n + 1, s => consumeTimes n s.consume

/-- **The consumer handles** all that is queued. -/
def settle (s : Session τ) : Session τ :=
  consumeTimes s.queue.length s

/-- When the consumer stops waiting, if it is waiting for a time. -/
def wakeTime? (s : Session τ) : Option τ :=
  if s.consuming then s.coalescer.deadline? else none

/-- The consumer waits as long as its next deadline is one of the given times, and wakes at each, as
often as told. -/
def wakeWhile (p : τ → Bool) : Nat → Session τ → Session τ
  | 0, s => s
  | n + 1, s =>
    match s.wakeTime? with
    | none => s
    | some due =>
      if p due then
        wakeWhile p n
          { s with clock := { s.clock with now := Coalescer.later s.clock.now due } }.timeOut
      else s

/-- **Time goes by** up to a target: the consumer handles what is queued and then wakes at those
deadlines that `p` holds of. Every waking settles an action, so there are no more of them than
actions held back. -/
def advanceWhile (s : Session τ) (p : τ → Bool) (target : τ) : Session τ :=
  let s := s.settle
  let s := wakeWhile p (s.coalescer.load + 1) s
  { s with clock := { s.clock with now := target } }

/-- **Time goes by** up to a target, and the deadlines that are due then are met. -/
def advanceTo (s : Session τ) (target : τ) : Session τ :=
  s.advanceWhile (fun due => decide (due ≤ target)) target

/-- **Time goes by** up to a target, and something else comes first there: the deadlines that are
due then are left for later. -/
def advanceBefore (s : Session τ) (target : τ) : Session τ :=
  s.advanceWhile (fun due => decide (due < target)) target

/-! ### The calls -/

/-- **Posts** an event, or something else. -/
def post (s : Session τ) (e : Option Event) : Except Halted (Session τ) :=
  if s.state.isHalted then .error (.post s.state)
  else .ok { s with queue := s.queue ++ [.posted e] }

/-- **Posts from another thread.** If the session was started, the event is only scheduled to be put
into the queue. -/
def postElsewhere (s : Session τ) (e : Option Event) : Except Halted (Session τ) :=
  if s.state.isHalted then .error (.post s.state)
  else if s.started then .ok { s with scheduled := s.scheduled ++ [e] }
  else .ok { s with queue := s.queue ++ [.posted e] }

/-- **What was scheduled first** comes into the queue, whatever has become of the session. -/
def land (s : Session τ) : Session τ :=
  match s.scheduled with
  | [] => s
  | e :: rest => { s with queue := s.queue ++ [.posted e], scheduled := rest }

/-- All that is scheduled comes into the queue. -/
def landAll (s : Session τ) : Session τ :=
  { s with queue := s.queue ++ s.scheduled.map .posted, scheduled := [] }

/-- **Waits** until the consumer has handled what was posted. If none is at work, there is nothing
to wait for. -/
def drain (s : Session τ) : Session τ :=
  if s.consuming then s.landAll.settle else s

/-- **Starts** the consumer; once is enough. -/
def start (s : Session τ) : Except Halted (Session τ) :=
  if s.started then .ok s
  else if s.state != .idle then .error (.start s.state)
  else .ok { s with state := .recording, started := true, consuming := true }

/-- Handles queued items without a consumer, up to a failure. -/
def handleQueued (s : Session τ) : List QueueItem → Session τ
  | [] => { s with queue := [] }
  | .stop :: rest => { s with queue := rest }.handleQueued rest
  | .posted e :: rest =>
    let s := { s with queue := rest }.handle e
    if s.state == .failed then s else s.handleQueued rest

/-- **A stop begins**: the session takes no more events, and the end is queued. A session that was
never started handles its queue now. -/
def beginStop (s : Session τ) : Session τ :=
  let s := { s with state := .stopping }
  if s.started then { s with queue := s.queue ++ [.stop] } else s.handleQueued s.queue

/-- The session with its log and output closed. -/
def freeze (s : Session τ) : Session τ :=
  { s with log := s.log.freeze, output := s.output.freeze }

/-- **A stop ends**: unless the session has failed, all is settled and published. Then the log and
the output are closed. -/
def endStop (s : Session τ) : Session τ :=
  let s :=
    if s.state == .failed then s
    else
      let (m, y) := s.coalescer.flush
      let s := s.afterYield m y
      if s.state == .failed then s else { s with state := .stopped }
  s.freeze

/-- **Stops** the session, waiting for its consumer. What is scheduled comes into the queue
meanwhile, behind its end. Stopping again changes nothing, and a session that has failed is only
closed. -/
def stop (s : Session τ) : Session τ :=
  match s.state with
  | .stopped | .stopping => s
  | .failed => s.freeze
  | .idle | .recording => s.beginStop.landAll.settle.endStop

end

/-- **A new session**, unless one of its windows is negative. -/
def new? [OfNat τ 0] [LT τ] [DecidableLT τ] (testIdAttribute : String)
    (signalWindow syncTimeout : τ) (clock : Clock τ) : Option (Session τ) :=
  (Coalescer.new? signalWindow syncTimeout).map fun m =>
    { clock := clock
      observer := { testIdAttribute := testIdAttribute }
      coalescer := m
      output := Output.ofCatalog .standard }

end Session

end Scribe
