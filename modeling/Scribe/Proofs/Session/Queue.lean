import Scribe.Proofs.Session.Steps

/-!
# What is queued is handled

An event that has come into the queue of a session waits there until it is handed to the observer:
by the consumer if the session was started, and by its stop if it was not. A stop queues its end
behind the events, so all of them are handled before what is left is settled.

The steps of a run do deeds (`Scribe.Session.deeds`): an event is handed over, the time goes by,
what is left is settled. What a session records is what its deeds make of it
(`Scribe.Session.Handles.book`).

The invariant is `Scribe.Session.IsOrderly`, which says by state where the end is queued. With it,
each step hands over the first of the events that wait, or puts one behind them
(`Scribe.Session.IsOrderly.step`), and over a whole run what has come into the queue ahead of its
end is what was handed over and what still waits (`Scribe.Session.IsOrderly.run`).
-/

namespace Scribe

/-- **How the states of a session follow each other**, as long as nothing fails. -/
inductive SessionState.Follows : SessionState → SessionState → Prop
  | start : Follows .idle .recording
  | stopUnstarted : Follows .idle .stopping
  | stop : Follows .recording .stopping
  | stopped : Follows .stopping .stopped

namespace Session

variable {τ : Type} {s t : Session τ}

/-! ### Deeds -/

/-- **What a session does** to what it records. -/
inductive Deed (τ : Type) where
  /-- Something posted is handed to the observer and handled. -/
  | hand (e : Option Event)
  /-- The time that the clock shows goes by. -/
  | tick
  | setClock (now : τ)
  /-- What is left is settled, and the log is closed. -/
  | flush

/-- Whether a deed only has to do with the time. -/
def Deed.isOfTime : Deed τ → Bool
  | tick | setClock _ => true
  | hand _ | flush => false

/-- **What a session records**, and the clock that it reads meanwhile. -/
structure Book (τ : Type) where
  observer : Observer
  coalescer : Coalescer τ
  names : PageNames
  log : ActionLog
  clock : Clock τ
  warnings : List String

/-- The book of a session. -/
def book (s : Session τ) : Book τ :=
  ⟨s.observer, s.coalescer, s.names, s.log, s.clock, s.warnings⟩

/-- Two sessions have the same book if they have recorded the same by the same clock. -/
theorem book_eq_iff : s.book = t.book ↔ s.observer = t.observer ∧ s.coalescer = t.coalescer ∧
    s.names = t.names ∧ s.log = t.log ∧ s.clock = t.clock ∧ s.warnings = t.warnings := by
  simp only [book, Book.mk.injEq]

theorem book_publish (h : s.book = t.book) (committed : List Action) :
    (s.publish committed).book = (t.publish committed).book := by
  obtain ⟨hobserver, hcoalescer, hnames, hlog, hclock, hwarnings⟩ := book_eq_iff.mp h
  rw [publish, publish, hnames, hlog]
  split
  · exact h
  · split <;> exact book_eq_iff.mpr ⟨hobserver, hcoalescer, rfl, rfl, hclock, hwarnings⟩

theorem book_afterYield (h : s.book = t.book) (m : Coalescer τ) (y : Yield) :
    (s.afterYield m y).book = (t.afterYield m y).book := by
  obtain ⟨hobserver, -, hnames, hlog, hclock, hwarnings⟩ := book_eq_iff.mp h
  have hnext : ({ s with
        coalescer := m, warnings := s.warnings ++ y.missed.map MissedSignal.message }).book =
      ({ t with
        coalescer := m, warnings := t.warnings ++ y.missed.map MissedSignal.message }).book :=
    book_eq_iff.mpr ⟨hobserver, rfl, hnames, hlog, hclock, by rw [hwarnings]⟩
  rw [afterYield, afterYield]
  split
  · exact hnext
  · exact book_publish hnext _

section

variable [Add τ] [LE τ] [DecidableLE τ] [LT τ] [DecidableLT τ]

theorem book_handle (h : s.book = t.book) (e : Option Event) :
    (s.handle e).book = (t.handle e).book := by
  obtain ⟨hobserver, hcoalescer, hnames, hlog, hclock, hwarnings⟩ := book_eq_iff.mp h
  cases e with
  | none =>
    exact book_eq_iff.mpr
      ⟨hobserver, hcoalescer, hnames, hlog, by simp only [handle, fail, hclock], hwarnings⟩
  | some e =>
    have hnext : ({ s with
          clock := t.clock.read.2, observer := (t.observer.observe e).2 } : Session τ).book =
        ({ t with clock := t.clock.read.2, observer := (t.observer.observe e).2 } :
          Session τ).book :=
      book_eq_iff.mpr ⟨rfl, hcoalescer, hnames, hlog, rfl, hwarnings⟩
    simp only [handle, hobserver, hcoalescer, hclock]
    exact book_afterYield hnext _ _

theorem book_timeOut (h : s.book = t.book) (hs : s.consuming = true) (ht : t.consuming = true) :
    s.timeOut.book = t.timeOut.book := by
  obtain ⟨hobserver, hcoalescer, hnames, hlog, hclock, hwarnings⟩ := book_eq_iff.mp h
  have hnext : ({ s with clock := t.clock.read.2 } : Session τ).book =
      ({ t with clock := t.clock.read.2 } : Session τ).book :=
    book_eq_iff.mpr ⟨hobserver, hcoalescer, hnames, hlog, rfl, hwarnings⟩
  have hticked := book_afterYield hnext (t.coalescer.tick t.clock.read.1).1
    (t.coalescer.tick t.clock.read.1).2
  rw [timeOut, timeOut, if_neg (by simp [hs]), if_neg (by simp [ht])]
  simpa only [hcoalescer, hclock] using hticked

/-- **A deed is done.** -/
def act (s : Session τ) : Deed τ → Session τ
  | .hand e => s.handle e
  | .tick => { s with consuming := true }.timeOut
  | .setClock now => { s with clock := { s.clock with now := now } }
  | .flush => (s.afterYield s.coalescer.flush.1 s.coalescer.flush.2).freeze

/-- **What a deed makes of a book** depends on the book alone. -/
theorem book_act (h : s.book = t.book) (d : Deed τ) : (s.act d).book = (t.act d).book := by
  obtain ⟨hobserver, hcoalescer, hnames, hlog, hclock, hwarnings⟩ := book_eq_iff.mp h
  cases d with
  | hand e => exact book_handle h e
  | tick =>
    refine book_timeOut ?_ rfl rfl
    exact h
  | setClock now =>
    exact book_eq_iff.mpr
      ⟨hobserver, hcoalescer, hnames, hlog, by simp only [act, hclock], hwarnings⟩
  | flush =>
    have hflushed := book_afterYield h s.coalescer.flush.1 s.coalescer.flush.2
    obtain ⟨hobserver, hcoalescer', hnames, hlog, hclock, hwarnings⟩ := book_eq_iff.mp hflushed
    simp only [act, ← hcoalescer]
    exact book_eq_iff.mpr ⟨hobserver, hcoalescer', hnames, congrArg ActionLog.freeze hlog, hclock,
      hwarnings⟩

theorem book_foldl_act (h : s.book = t.book) (deeds : List (Deed τ)) :
    (deeds.foldl act s).book = (deeds.foldl act t).book := by
  induction deeds generalizing s t with
  | nil => exact h
  | cons d rest ih => exact ih (book_act h d)

/-! ### What waits -/

/-- The posted items at the front of a queue, up to its end. -/
def comingUp : List QueueItem → List (Option Event)
  | .posted e :: rest => e :: comingUp rest
  | _ => []

theorem comingUp_append_posted {queue : List QueueItem} (h : .stop ∉ queue) (e : Option Event) :
    comingUp (queue ++ [.posted e]) = comingUp queue ++ [e] := by
  induction queue with
  | nil => rfl
  | cons item rest ih =>
    cases item with
    | stop => exact absurd List.mem_cons_self h
    | posted f => exact congrArg (f :: ·) (ih fun hmem => h (List.mem_cons_of_mem _ hmem))

/-- What is queued behind the end of a queue does not come up. -/
theorem comingUp_append_of_mem {queue : List QueueItem} (h : .stop ∈ queue)
    (more : List QueueItem) : comingUp (queue ++ more) = comingUp queue := by
  induction queue with
  | nil => cases h
  | cons item rest ih =>
    cases item with
    | stop => rfl
    | posted f =>
      have hrest : QueueItem.stop ∈ rest := by simpa using h
      exact congrArg (f :: ·) (ih hrest)

theorem comingUp_append_stop (queue : List QueueItem) :
    comingUp (queue ++ [.stop]) = comingUp queue := by
  induction queue with
  | nil => rfl
  | cons item rest ih =>
    cases item with
    | stop => rfl
    | posted f => exact congrArg (f :: ·) ih

/-- **The events that still wait** to be handed over: none, if nobody is going to take them. -/
def waiting (s : Session τ) : List (Option Event) :=
  if s.state = .idle ∨ s.consuming = true then comingUp s.queue else []

/-- **Something that was posted**, and whether by another thread. -/
structure Posted where
  event : Option Event
  elsewhere : Bool

/-- **What a step puts into the queue** ahead of its end. What comes later waits for ever. -/
def arrivedBy (s : Session τ) : Move τ → List Posted
  | .post e => if s.state.isHalted then [] else [⟨e, false⟩]
  | .postElsewhere e => if s.state.isHalted || s.started then [] else [⟨e, true⟩]
  | .land => if s.state.isHalted then [] else (s.scheduled.take 1).map (⟨·, true⟩)
  | _ => []

/-- **The deeds of a step**, as long as nothing fails. -/
def deedsOf (s : Session τ) : Move τ → List (Deed τ)
  | .consume => if s.consuming then ((comingUp s.queue).take 1).map .hand else []
  | .timeOut => if s.consuming then [.tick] else []
  | .setClock now => [.setClock now]
  | .beginStop => if s.state.isHalted || s.started then [] else s.waiting.map .hand
  | .endStop => if s.canEndStop then [.flush] else []
  | _ => []

/-- **What steps put into the queue** ahead of its end. -/
def arrived (s : Session τ) : List (Move τ) → List Posted
  | [] => []
  | m :: rest => s.arrivedBy m ++ (s.perform m).arrived rest

/-- **The deeds of steps**, one after the other. -/
def deeds (s : Session τ) : List (Move τ) → List (Deed τ)
  | [] => []
  | m :: rest => s.deedsOf m ++ (s.perform m).deeds rest

/-! ### Steps in order -/

/-- **Where the end is queued**, by the state of a session. -/
structure IsOrderly (s : Session τ) : Prop where
  idle : s.state = .idle →
    s.started = false ∧ s.consuming = false ∧ .stop ∉ s.queue ∧ s.scheduled = []
  recording : s.state = .recording → s.started = true ∧ s.consuming = true ∧ .stop ∉ s.queue
  /-- A consumer that is to stop will come to the end of its queue. -/
  stopping : s.state = .stopping → s.consuming = true → .stop ∈ s.queue
  stopped : s.state = .stopped → s.consuming = false

/-- **What lies between two moments of a session**: the deeds done, and the events that have come
into the queue. -/
structure Handles (s t : Session τ) (deeds : List (Deed τ)) (arrived : List (Option Event)) :
    Prop where
  orderly : t.IsOrderly
  /-- The deeds account for what is recorded. -/
  book : t.book = (deeds.foldl act s).book
  /-- A session that has stopped takes nothing more. -/
  stopped : s.state = .stopped → t.state = .stopped ∧ arrived = []
  /-- What waited and what has come is handed over in this order, unless it still waits, and then
  what is left is settled. -/
  handed : ∃ handed, deeds.filter (!·.isOfTime) =
      handed.map .hand ++ (if s.state ≠ .stopped ∧ t.state = .stopped then [.flush] else []) ∧
    s.waiting ++ arrived = handed ++ t.waiting

omit [Add τ] [LE τ] [DecidableLE τ] [LT τ] [DecidableLT τ] in
theorem IsOrderly.waiting_of_stopped (h : s.IsOrderly) (hstate : s.state = .stopped) :
    s.waiting = [] := by
  rw [waiting, if_neg]
  simp [hstate, h.stopped hstate]

theorem Handles.refl (h : s.IsOrderly) : s.Handles s [] [] :=
  ⟨h, rfl, fun hstate => ⟨hstate, rfl⟩, [], by simp, by simp⟩

theorem Handles.trans {u : Session τ} {d d' : List (Deed τ)} {a a' : List (Option Event)}
    (h : s.Handles t d a) (h' : t.Handles u d' a') : s.Handles u (d ++ d') (a ++ a') := by
  obtain ⟨first, hfirst, hwaiting⟩ := h.handed
  obtain ⟨second, hsecond, hwaiting'⟩ := h'.handed
  refine ⟨h'.orderly, ?_, fun hstate => ?_, ?_⟩
  · rw [List.foldl_append, h'.book]
    exact book_foldl_act h.book d'
  · obtain ⟨hstate, rfl⟩ := h.stopped hstate
    obtain ⟨hstate, rfl⟩ := h'.stopped hstate
    exact ⟨hstate, rfl⟩
  by_cases hstate : t.state = .stopped
  · -- nothing waits any more, and nothing comes, so nothing is handed over after the end
    obtain ⟨hstate', rfl⟩ := h'.stopped hstate
    rw [h.orderly.waiting_of_stopped hstate, h'.orderly.waiting_of_stopped hstate',
      List.append_nil, List.append_nil] at hwaiting'
    subst hwaiting'
    refine ⟨first, ?_, ?_⟩
    · rw [List.filter_append, hfirst, hsecond]
      simp [hstate, hstate']
    · rw [List.append_nil, hwaiting, h.orderly.waiting_of_stopped hstate,
        h'.orderly.waiting_of_stopped hstate']
  · have hopen : s.state ≠ .stopped := fun hs => hstate (h.stopped hs).1
    refine ⟨first ++ second, ?_, ?_⟩
    · rw [List.filter_append, hfirst, hsecond]
      simp [hstate, hopen]
    · rw [← List.append_assoc, hwaiting, List.append_assoc, hwaiting', List.append_assoc]

/-- A step that has nothing to do with the queue. -/
theorem Handles.of_standing {d : List (Deed τ)} (h : s.IsOrderly) (hst : s.SameStanding t)
    (hbook : t.book = (d.foldl act s).book) (hd : d.filter (!·.isOfTime) = []) :
    s.Handles t d [] := by
  obtain ⟨hstate, hstarted, hconsuming, hqueue, hscheduled⟩ := hst
  have hwaiting : t.waiting = s.waiting := by
    rw [waiting, waiting, hstate, hconsuming, hqueue]
  refine ⟨?_, hbook, fun hs => ⟨hstate.trans hs, rfl⟩, [], ?_, by simp [hwaiting]⟩
  · constructor <;> rw [hstate] <;> intro hs
    · rw [hstarted, hconsuming, hqueue, hscheduled]
      exact h.idle hs
    · rw [hstarted, hconsuming, hqueue]
      exact h.recording hs
    · rw [hconsuming, hqueue]
      exact h.stopping hs
    · rw [hconsuming]
      exact h.stopped hs
  · rw [hd, hstate]
    simp

theorem consume_of_stop {rest : List QueueItem} (h : s.consuming = true)
    (hqueue : s.queue = .stop :: rest) :
    s.consume = { s with queue := rest, consuming := false } := by
  simp [consume, h, hqueue]

theorem consume_of_posted {e : Option Event} {rest : List QueueItem} (h : s.consuming = true)
    (hqueue : s.queue = .posted e :: rest) :
    s.consume = ({ s with queue := rest } : Session τ).handle e := by
  simp [consume, h, hqueue]

/-- **The consumer takes an item**: an event is handed over, and behind the end nothing is. -/
theorem IsOrderly.consume (h : s.IsOrderly) (hok : s.consume.state ≠ .failed) :
    s.Handles s.consume (s.deedsOf .consume) [] := by
  cases hconsuming : s.consuming with
  | false =>
    rw [Session.consume, if_pos (by simp [hconsuming]), deedsOf, if_neg (by simp [hconsuming])]
    exact .refl h
  | true =>
    rw [deedsOf, if_pos hconsuming]
    have hwaiting : s.waiting = comingUp s.queue := by rw [waiting, if_pos (Or.inr hconsuming)]
    have hidle : s.state ≠ .idle := fun hs => by simp [(h.idle hs).2.1] at hconsuming
    have hopen : s.state ≠ .stopped := fun hs => by simp [h.stopped hs] at hconsuming
    cases hqueue : s.queue with
    | nil =>
      have hsame : s.consume = s := by simp [Session.consume, hqueue]
      rw [hsame]
      exact .refl h
    | cons item rest =>
      rw [hqueue] at hwaiting
      cases item with
      | stop =>
        rw [consume_of_stop hconsuming hqueue]
        -- the end is queued only in a session that is stopping
        refine ⟨⟨fun hs => absurd hs hidle, fun hs => ?_, by simp, by simp⟩, rfl,
          fun hs => absurd hs hopen, [], ?_, ?_⟩
        · exact absurd (by simp [hqueue]) (h.recording hs).2.2
        · simp [comingUp, hopen]
        · rw [hwaiting, waiting, if_neg (by simpa using hidle)]
          rfl
      | posted e =>
        rw [consume_of_posted hconsuming hqueue] at hok ⊢
        obtain ⟨hstate, hstarted, hconsuming', hqueue', -⟩ := sameStanding_handle hok
        have hbook : (({ s with queue := rest } : Session τ).handle e).book = (s.handle e).book :=
          book_handle (s := { s with queue := rest }) (t := s) rfl e
        generalize ({ s with queue := rest } : Session τ).handle e = t at *
        dsimp only at hstate hstarted hconsuming' hqueue'
        refine ⟨⟨fun hs => absurd (hstate ▸ hs) hidle, fun hs => ?_, fun hs _ => ?_,
          fun hs => absurd (hstate ▸ hs) hopen⟩, hbook, fun hs => absurd hs hopen, [e], ?_, ?_⟩
        · obtain ⟨hs₁, -, hs₃⟩ := h.recording (hstate ▸ hs)
          rw [hqueue, List.mem_cons, not_or] at hs₃
          exact ⟨hstarted.trans hs₁, hconsuming'.trans hconsuming, hqueue' ▸ hs₃.2⟩
        · have hmem := h.stopping (hstate ▸ hs) hconsuming
          rw [hqueue, List.mem_cons] at hmem
          exact hqueue' ▸ hmem.resolve_left (by simp)
        · simp [comingUp, hstate, hopen, Deed.isOfTime]
        · rw [hwaiting, waiting, if_pos (Or.inr (hconsuming'.trans hconsuming)), hqueue',
            List.append_nil]
          rfl

/-- **A queue without an end is worked off** by a session that was never started. -/
theorem handleQueued_of_not_mem {queue : List QueueItem} (hstop : .stop ∉ queue)
    (hok : (s.handleQueued queue).state ≠ .failed) :
    ({ s with queue := [] } : Session τ).SameStanding (s.handleQueued queue) ∧
      (s.handleQueued queue).book = (((comingUp queue).map .hand).foldl act s).book := by
  induction queue generalizing s with
  | nil => exact ⟨⟨rfl, rfl, rfl, rfl, rfl⟩, rfl⟩
  | cons item rest ih =>
    cases item with
    | stop => exact absurd List.mem_cons_self hstop
    | posted e =>
      rw [handleQueued] at hok ⊢
      split at hok
      · next hfailed => exact absurd (by simpa using hfailed) hok
      · next hfailed =>
        rw [if_neg hfailed]
        obtain ⟨hstate, hstarted, hconsuming, -, hscheduled⟩ := sameStanding_handle
          (s := { s with queue := rest }) (e := e) (by simpa using hfailed)
        obtain ⟨⟨hstate', hstarted', hconsuming', hqueue', hscheduled'⟩, hbook⟩ :=
          ih (fun hmem => hstop (List.mem_cons_of_mem _ hmem)) hok
        have hsame : (({ s with queue := rest } : Session τ).handle e).book = (s.handle e).book :=
          book_handle (s := { s with queue := rest }) (t := s) rfl e
        exact ⟨⟨hstate'.trans hstate, hstarted'.trans hstarted, hconsuming'.trans hconsuming,
          hqueue', hscheduled'.trans hscheduled⟩, hbook.trans (book_foldl_act hsame _)⟩

/-- **A stop begins**: its end is queued, or all that waits is handed over. -/
theorem IsOrderly.beginStop (h : s.IsOrderly)
    (hok : (s.perform .beginStop).state ≠ .failed) :
    s.Handles (s.perform .beginStop) (s.deedsOf .beginStop) [] := by
  rw [perform] at hok ⊢
  split at hok
  · next hhalted =>
    rw [if_pos hhalted, deedsOf, if_pos (by simp [hhalted])]
    exact .refl h
  next hhalted =>
  rw [if_neg hhalted]
  have hopen : s.state ≠ .stopped := by
    rintro hs
    simp [hs, SessionState.isHalted] at hhalted
  rw [Session.beginStop] at hok ⊢
  dsimp only at hok ⊢
  cases hstarted : s.started with
  | true =>
    rw [if_pos rfl, deedsOf, if_pos (by simp [hstarted])]
    have hidle : s.state ≠ .idle := fun hs => by simp [(h.idle hs).1] at hstarted
    refine ⟨⟨by simp, by simp, by simp, by simp⟩, rfl, fun hs => absurd hs hopen, [], by simp, ?_⟩
    rw [waiting, waiting]
    simp [hidle, comingUp_append_stop]
  | false =>
    rw [hstarted, if_neg (by simp)] at hok
    rw [if_neg (by simp), deedsOf, if_neg (by simp [hhalted, hstarted])]
    -- a session that takes events and was not started is idle
    have hidle : s.state = .idle := by
      cases hs : s.state with
      | idle => rfl
      | recording => simp [(h.recording hs).1] at hstarted
      | stopping | stopped | failed => simp [hs, SessionState.isHalted] at hhalted
    obtain ⟨-, hconsuming, hstop, -⟩ := h.idle hidle
    obtain ⟨⟨hstate', -, hconsuming', -⟩, hbook⟩ := handleQueued_of_not_mem hstop hok
    have hsame : ({ s with state := .stopping, started := false } : Session τ).book = s.book := rfl
    have hbook := hbook.trans (book_foldl_act hsame _)
    generalize ({ s with state := .stopping, started := false } : Session τ).handleQueued s.queue =
      t at *
    have hidle' : t.consuming = false := hconsuming'.trans hconsuming
    dsimp only at hstate'
    have hwaiting : s.waiting = comingUp s.queue := by rw [waiting, if_pos (Or.inl hidle)]
    refine ⟨⟨by simp [hstate'], by simp [hstate'], by simp [hidle'], by simp [hstate']⟩,
      hwaiting ▸ hbook, fun hs => absurd hs hopen, comingUp s.queue, ?_, ?_⟩
    · rw [hwaiting, hstate']
      simp [List.filter_map, Function.comp_def, Deed.isOfTime]
    · rw [hwaiting, waiting, if_neg (by simp [hstate', hidle'])]

/-- **A stop ends**: what is left is settled. -/
theorem IsOrderly.endStop (h : s.IsOrderly) (hok : (s.perform .endStop).state ≠ .failed) :
    s.Handles (s.perform .endStop) (s.deedsOf .endStop) [] ∧
      (s.canEndStop = true → s.state = .stopping ∧ (s.perform .endStop).state = .stopped) := by
  by_cases hcan : s.canEndStop = true
  · obtain ⟨hstate, hidle⟩ := canEndStop_iff.mp hcan
    rw [perform, if_pos hcan] at hok ⊢
    rw [deedsOf, if_pos hcan]
    have hfailed : s.state ≠ .failed := by
      intro hs
      rw [Session.endStop, if_pos (by rw [hs]; rfl)] at hok
      exact hok hs
    have hstate : s.state = .stopping := hstate.resolve_right hfailed
    rw [Session.endStop, if_neg (by simpa using hfailed)] at hok ⊢
    dsimp only at hok ⊢
    split at hok
    · next hs => exact absurd (beq_iff_eq.mp hs) hok
    next hs =>
    rw [if_neg hs]
    obtain ⟨-, -, hconsuming, -⟩ := sameStanding_afterYield (by simpa using hs)
    have hidle' : (s.afterYield s.coalescer.flush.1 s.coalescer.flush.2).consuming = false :=
      hconsuming.trans hidle
    refine ⟨⟨⟨by rintro ⟨⟩, by rintro ⟨⟩, by rintro ⟨⟩, fun _ => hidle'⟩, rfl, by simp [hstate], [],
      ?_, ?_⟩, fun _ => ⟨hstate, rfl⟩⟩
    · simp [hstate, Deed.isOfTime, freeze]
    · rw [waiting, waiting, if_neg (by simp [hstate, hidle]), if_neg (by simp [freeze, hidle'])]
  · rw [perform, if_neg hcan, deedsOf, if_neg hcan]
    exact ⟨.refl h, fun hc => absurd hc hcan⟩

/-- Something posted comes into the queue, ahead of its end or too late. -/
theorem IsOrderly.queued (h : s.IsOrderly) (hok : s.state ≠ .failed) (e : Option Event)
    (scheduled : List (Option Event)) (hscheduled : s.state = .idle → scheduled = []) :
    s.Handles { s with queue := s.queue ++ [.posted e], scheduled := scheduled } []
      (if s.state.isHalted then [] else [e]) := by
  have hmem : QueueItem.stop ∉ s.queue → QueueItem.stop ∉ s.queue ++ [.posted e] := by simp
  refine ⟨⟨fun hs => ?_, fun hs => ?_, fun hs hc => ?_, h.stopped⟩, rfl, fun hs => ⟨hs, ?_⟩, [], ?_,
    ?_⟩
  · obtain ⟨hstarted, hconsuming, hstop, -⟩ := h.idle hs
    exact ⟨hstarted, hconsuming, hmem hstop, hscheduled hs⟩
  · obtain ⟨hstarted, hconsuming, hstop⟩ := h.recording hs
    exact ⟨hstarted, hconsuming, hmem hstop⟩
  · exact List.mem_append_left _ (h.stopping hs hc)
  · rw [if_pos (by rw [hs]; rfl)]
  · simp
  · rw [waiting, waiting]
    cases hs : s.state with
    | idle => simp [SessionState.isHalted, comingUp_append_posted (h.idle hs).2.2.1]
    | recording =>
      obtain ⟨-, hconsuming, hstop⟩ := h.recording hs
      simp [SessionState.isHalted, hconsuming, comingUp_append_posted hstop]
    | stopping =>
      cases hconsuming : s.consuming with
      | false => simp [SessionState.isHalted]
      | true => simp [SessionState.isHalted, comingUp_append_of_mem (h.stopping hs hconsuming)]
    | stopped => simp [SessionState.isHalted, h.stopped hs]
    | failed => exact absurd hs hok

/-- Something is scheduled, which is nothing to the queue. -/
theorem IsOrderly.scheduled (h : s.IsOrderly) (hstarted : s.started = true)
    (scheduled : List (Option Event)) :
    s.Handles { s with scheduled := scheduled } [] [] := by
  refine ⟨⟨fun hs => ?_, h.recording, h.stopping, h.stopped⟩, rfl, fun hs => ⟨hs, rfl⟩, [], ?_, ?_⟩
  · exact absurd ((h.idle hs).1.symm.trans hstarted) Bool.false_ne_true
  · simp
  · simp [waiting]

/-- **One step** hands over the first of what waits, or puts something behind it. -/
theorem IsOrderly.step (h : s.IsOrderly) {m : Move τ} (hm : m ≠ .stop)
    (hok : (s.perform m).state ≠ .failed) :
    s.Handles (s.perform m) (s.deedsOf m) ((s.arrivedBy m).map (·.event)) := by
  have hs : s.state ≠ .failed := fun hs => hok (state_perform_of_failed hs m)
  cases m with
  | post e =>
    have hqueued := h.queued hs e s.scheduled fun hidle => (h.idle hidle).2.2.2
    rw [perform_post, arrivedBy]
    split
    · exact .refl h
    · next hstate =>
      rw [if_neg hstate] at hqueued
      exact hqueued
  | postElsewhere e =>
    have hqueued := h.queued hs e s.scheduled fun hidle => (h.idle hidle).2.2.2
    rw [perform_postElsewhere, arrivedBy]
    by_cases hhalted : s.state.isHalted = true
    · rw [if_pos hhalted, if_pos (by simp [hhalted])]
      exact .refl h
    by_cases hstarted : s.started = true
    · rw [if_neg hhalted, if_pos hstarted, if_pos (by simp [hstarted])]
      exact h.scheduled hstarted (s.scheduled ++ [e])
    · rw [if_neg hhalted, if_neg hstarted, if_neg (by simp [hhalted, hstarted])]
      rw [if_neg hhalted] at hqueued
      exact hqueued
  | land =>
    rw [arrivedBy]
    cases hscheduled : s.scheduled with
    | nil =>
      rw [perform_land_of_nil hscheduled, List.take_nil, List.map_nil, ite_self]
      exact .refl h
    | cons e rest =>
      have hidle : s.state ≠ .idle := fun hidle => by simp [(h.idle hidle).2.2.2] at hscheduled
      have hqueued := h.queued hs e rest fun hs => absurd hs hidle
      rw [perform_land_of_cons hscheduled]
      split
      · next hhalted =>
        rw [if_pos hhalted] at hqueued
        exact hqueued
      · next hhalted =>
        rw [if_neg hhalted] at hqueued
        exact hqueued
  | start =>
    rw [perform, start]
    split
    · exact .refl h
    split
    · exact .refl h
    · next hstate =>
      -- an idle session is started, and what waits now waits for the consumer
      obtain ⟨-, -, hstop, -⟩ := h.idle (by simpa using hstate)
      have hstate : s.state = .idle := by simpa using hstate
      change s.Handles { s with state := .recording, started := true, consuming := true } [] []
      refine ⟨⟨by simp, fun _ => ⟨rfl, rfl, hstop⟩, by simp, by simp⟩, rfl, ?_, [], by simp, ?_⟩
      · simp [hstate]
      · simp [waiting, hstate]
  | consume => exact h.consume hok
  | timeOut =>
    refine .of_standing h (sameStanding_timeOut hok) ?_ ?_
    · rw [deedsOf]
      split
      · next hconsuming => exact book_timeOut (t := { s with consuming := true }) rfl hconsuming rfl
      · next hconsuming =>
        rw [perform, timeOut, if_pos (by simpa using hconsuming)]
        rfl
    · rw [deedsOf]
      split <;> rfl
  | setClock now => exact .of_standing h ⟨rfl, rfl, rfl, rfl, rfl⟩ rfl rfl
  | beginStop => exact h.beginStop hok
  | endStop => exact (h.endStop hok).1
  | stop => exact absurd rfl hm

/-- **The states follow each other** from step to step. -/
theorem IsOrderly.follows (h : s.IsOrderly) {m : Move τ} (hm : m ≠ .stop)
    (hok : (s.perform m).state ≠ .failed) :
    (s.perform m).state = s.state ∨ s.state.Follows (s.perform m).state := by
  have hs : s.state ≠ .failed := fun hs => hok (state_perform_of_failed hs m)
  cases m with
  | post e =>
    rw [perform_post]
    split <;> exact Or.inl rfl
  | postElsewhere e =>
    rw [perform_postElsewhere]
    split
    · exact Or.inl rfl
    split <;> exact Or.inl rfl
  | land =>
    rw [perform, land]
    split <;> exact Or.inl rfl
  | start =>
    rw [perform, start]
    split
    · exact Or.inl rfl
    split
    · exact Or.inl rfl
    · next hstate =>
      have hstate : s.state = .idle := by simpa using hstate
      exact Or.inr (hstate ▸ .start)
  | consume => exact Or.inl (state_consume hok)
  | timeOut => exact Or.inl (sameStanding_timeOut hok).state
  | setClock now => exact Or.inl rfl
  | beginStop =>
    rw [perform] at hok ⊢
    split at hok
    · next hhalted =>
      rw [if_pos hhalted]
      exact Or.inl rfl
    · next hhalted =>
      rw [if_neg hhalted]
      have hstopping := state_beginStop.resolve_right hok
      rw [hstopping]
      cases hstate : s.state with
      | idle => exact Or.inr .stopUnstarted
      | recording => exact Or.inr .stop
      | stopping | stopped | failed => simp [hstate, SessionState.isHalted] at hhalted
  | endStop =>
    by_cases hcan : s.canEndStop = true
    · obtain ⟨hstopping, hstopped⟩ := (h.endStop hok).2 hcan
      rw [hstopping, hstopped]
      exact Or.inr .stopped
    · rw [perform, if_neg hcan]
      exact Or.inl rfl
  | stop => exact absurd rfl hm

/-- **What lies between the ends of a run**, from step to step. -/
theorem IsOrderly.run (h : s.IsOrderly) {steps : List (Move τ)} (hsteps : ∀ m ∈ steps, m ≠ .stop)
    (hok : (s.run steps).state ≠ .failed) :
    s.Handles (s.run steps) (s.deeds steps) ((s.arrived steps).map (·.event)) := by
  induction steps generalizing s with
  | nil => exact .refl h
  | cons m rest ih =>
    have hfirst : (s.perform m).state ≠ .failed := fun hs => hok (state_run_of_failed hs rest)
    have hhandles := h.step (hsteps m List.mem_cons_self) hfirst
    rw [arrived, List.map_append]
    exact hhandles.trans
      (ih hhandles.orderly (fun n hn => hsteps n (List.mem_cons_of_mem _ hn)) hok)

omit [Add τ] [LE τ] [DecidableLE τ] [LT τ] [DecidableLT τ] in
theorem isOrderly_fresh (testIdAttribute : String) (signalWindow syncTimeout start : τ)
    (clock : Clock τ) : (fresh testIdAttribute signalWindow syncTimeout start clock).IsOrderly :=
  ⟨fun _ => ⟨rfl, rfl, by simp [fresh], rfl⟩, by simp [fresh], by simp [fresh], by simp [fresh]⟩

end

end Session

end Scribe
