import Scribe.Proofs.Session.Health

/-!
# Turns of a session

At its simplest a session is started, its consumer takes turns – an event is handled as soon as it
is posted, or only a deadline is met – and it is stopped. This module says what such a turn
(`Scribe.Session.Turn`) does to what is recorded, and that nothing else matters for the log
(`Scribe.Session.Commits`).

A session that was never started handles all its events when it is stopped, each at the time that
its clock shows then (`Scribe.Clock.readings`), which may be any. `Scribe.Session.log_unstarted`
says that it comes to the same log as one whose consumer takes a turn for each event at these times.
-/

namespace Scribe

namespace Session

variable {τ : Type} {s t : Session τ}

/-! ### Committing in parts -/

theorem commit_append {names names' : PageNames} {log log' : ActionLog} {first : List Action}
    (h : commit names log first = (names', log', none)) (second : List Action) :
    commit names log (first ++ second) = commit names' log' second := by
  induction first generalizing names log with
  | nil =>
    cases h
    rfl
  | cons a rest ih =>
    simp only [List.cons_append, commit] at h ⊢
    cases happend : log.append (names.bind a).1 with
    | error v =>
      rw [happend] at h
      cases h
    | ok r =>
      rw [happend] at h
      exact ih h

/-- **A session commits** what its coalescer yields, when `r` is the result of its coalescer and `o`
the observer afterwards. -/
structure Commits (s : Session τ) (o : Observer) (r : Coalescer τ × Yield) (t : Session τ) :
    Prop where
  observer : t.observer = o
  coalescer : t.coalescer = r.1
  refused : r.2.refused = false
  committed : commit s.names s.log r.2.committed = (t.names, t.log, none)

theorem clock_afterYield (s : Session τ) (m : Coalescer τ) (y : Yield) :
    (s.afterYield m y).clock = s.clock := by
  rw [afterYield]
  split
  · rfl
  · rw [publish]
    split
    · rfl
    · split <;> rfl

/-- What does not fail commits all that is yielded. -/
theorem commits_afterYield {m : Coalescer τ} {y : Yield} (h : (s.afterYield m y).state ≠ .failed) :
    s.Commits s.observer (m, y) (s.afterYield m y) := by
  rw [afterYield] at h ⊢
  split at h
  · exact absurd rfl h
  · next hrefused =>
    rw [if_neg hrefused]
    rw [publish] at h ⊢
    have hrefused : y.refused = false := Bool.eq_false_iff.mpr hrefused
    split at h
    · next hempty =>
      rw [if_pos hempty]
      refine ⟨rfl, rfl, hrefused, ?_⟩
      rw [List.isEmpty_iff.mp hempty]
      rfl
    · next hempty =>
      rw [if_neg hempty]
      split at h
      · exact absurd rfl h
      · next hcommit =>
        exact ⟨rfl, rfl, hrefused, hcommit⟩

/-! ### Open sessions -/

/-- **An open session**: what is recorded agrees, and nothing has failed or been closed. -/
structure IsOpen (s : Session τ) : Prop where
  recorded : ∃ stream settled, s.Recorded stream settled
  frozen : s.log.frozen = false
  state : s.state ≠ .failed

theorem IsOpen.of_carriesOn (h : s.IsOpen) (hst : s.CarriesOn t) : t.IsOpen :=
  ⟨hst.recorded, hst.control.frozen.trans h.frozen, by rw [hst.control.state]; exact h.state⟩

variable [Add τ] [LE τ] [DecidableLE τ] [LT τ] [DecidableLT τ]

/-- **An event is handled**: what the coalescer makes of its candidates is committed. -/
theorem IsOpen.handle (h : s.IsOpen) (e : Event) :
    s.CarriesOn (s.handle (some e)) ∧ (s.handle (some e)).clock = s.clock.read.2 ∧
      s.Commits (s.observer.observe e).2
        (feedAll s.coalescer s.clock.read.1 (s.observer.observe e).1) (s.handle (some e)) := by
  obtain ⟨stream, settled, hrecorded⟩ := h.recorded
  have hcarries := carriesOn_handle hrecorded h.frozen h.state e
  have hstate := hcarries.control.state ▸ h.state
  obtain ⟨hobserver, hcoalescer, hrefused, hcommitted⟩ := commits_afterYield hstate
  exact ⟨hcarries, clock_afterYield _ _ _, hobserver, hcoalescer, hrefused, hcommitted⟩

/-- **A deadline is met.** -/
theorem IsOpen.timeOut (h : s.IsOpen) (hconsuming : s.consuming = true) :
    s.CarriesOn s.timeOut ∧ s.timeOut.clock = s.clock.read.2 ∧
      s.Commits s.observer (s.coalescer.tick s.clock.read.1) s.timeOut := by
  obtain ⟨stream, settled, hrecorded⟩ := h.recorded
  have hcarries := carriesOn_timeOut hrecorded h.frozen h.state
  refine ⟨hcarries, ?_⟩
  have hstate := hcarries.control.state ▸ h.state
  rw [Session.timeOut, if_neg (by simp [hconsuming])] at hstate ⊢
  obtain ⟨hobserver, hcoalescer, hrefused, hcommitted⟩ := commits_afterYield hstate
  exact ⟨clock_afterYield _ _ _, hobserver, hcoalescer, hrefused, hcommitted⟩

omit [LT τ] [DecidableLT τ] in
/-- **A stop ends**: what is left is committed, and the log is closed. -/
theorem IsOpen.endStop (h : s.IsOpen) :
    ∃ names log, commit s.names s.log s.coalescer.flush.2.committed = (names, log, none) ∧
      s.endStop.log = log.freeze := by
  obtain ⟨stream, settled, hrecorded⟩ := h.recorded
  have hcarries := carriesOn_afterYield hrecorded.published h.frozen h.state hrecorded.observed
    hrecorded.books.flush_books
  have hstate := hcarries.control.state ▸ h.state
  obtain ⟨-, -, -, hcommitted⟩ := commits_afterYield hstate
  refine ⟨_, _, hcommitted, ?_⟩
  rw [Session.endStop, if_neg (by simpa using h.state)]
  dsimp only
  rw [if_neg (by simpa using hstate)]
  rfl

/-! ### Turns -/

omit [Add τ] [LE τ] [DecidableLE τ] [LT τ] [DecidableLT τ] in
/-- **A turn of the consumer** at some time. -/
inductive Turn (τ : Type) where
  /-- An event is posted and handled. -/
  | event (e : Event) (now : τ)
  /-- The consumer has waited long enough. -/
  | tick (now : τ)

namespace Turn

/-- The time of a turn. -/
def now : Turn τ → τ
  | event _ now => now
  | tick now => now

/-- The moves of a turn. -/
def moves : Turn τ → List (Move τ)
  | event e now => [.setClock now, .post (some e), .consume]
  | tick now => [.setClock now, .timeOut]

/-- What the observer makes of a turn. -/
def observed (o : Observer) : Turn τ → List Candidate × Observer
  | event e _ => o.observe e
  | tick _ => ([], o)

end Turn

omit [Add τ] [LE τ] [DecidableLE τ] [LT τ] [DecidableLT τ] in
/-- **A session at work**: the consumer has nothing to do, and waits. -/
structure AtWork (s : Session τ) : Prop where
  isOpen : s.IsOpen
  state : s.state = .recording
  consuming : s.consuming = true
  started : s.started = true
  queue : s.queue = []
  scheduled : s.scheduled = []
  pace : s.clock.pace = .through []

omit [Add τ] [LE τ] [DecidableLE τ] [LT τ] [DecidableLT τ] in
/-- A session at work that carries on with the same clock is at work again. -/
theorem AtWork.of_carriesOn (h : s.AtWork) (hst : s.CarriesOn t)
    (hclock : t.clock.pace = .through []) : t.AtWork :=
  ⟨h.isOpen.of_carriesOn hst, hst.control.state.trans h.state,
    hst.control.consuming.trans h.consuming, hst.control.started.trans h.started,
    hst.queue.trans h.queue, hst.scheduled.trans h.scheduled, hclock⟩

/-- **What a turn does**: its candidates are fed, and what the coalescer yields is committed. -/
theorem AtWork.turn (h : s.AtWork) (t : Turn τ) :
    (s.run t.moves).AtWork ∧
      s.Commits (t.observed s.observer).2
        (feedAll s.coalescer t.now (t.observed s.observer).1) (s.run t.moves) := by
  -- the clock is set, and nothing else is read of it
  have hset (now : τ) : ({ s with clock := { s.clock with now := now } } : Session τ).AtWork :=
    ⟨⟨h.isOpen.recorded, h.isOpen.frozen, h.isOpen.state⟩, h.state, h.consuming, h.started, h.queue,
      h.scheduled, h.pace⟩
  have hread (now : τ) : ({ s.clock with now := now } : Clock τ).read =
      (now, { s.clock with now := now }) := by
    simp only [Clock.read, h.pace]
  cases t with
  | event e now =>
    have hrun : s.run (Turn.event e now).moves =
        ({ s with clock := { s.clock with now := now } } : Session τ).handle (some e) := by
      simp [Turn.moves, run, perform, post, h.state, SessionState.isHalted, Except.toOption,
        consume, h.consuming, h.queue]
    obtain ⟨hcarries, hclock, hcommits⟩ := (hset now).isOpen.handle e
    simp only [hread] at hclock hcommits
    rw [hrun]
    exact ⟨(hset now).of_carriesOn hcarries (by rw [hclock]; exact h.pace), hcommits.observer,
      hcommits.coalescer, hcommits.refused, hcommits.committed⟩
  | tick now =>
    have hrun : s.run (Turn.tick now).moves =
        ({ s with clock := { s.clock with now := now } } : Session τ).timeOut := rfl
    obtain ⟨hcarries, hclock, hcommits⟩ := (hset now).isOpen.timeOut h.consuming
    simp only [hread] at hclock hcommits
    rw [hrun]
    exact ⟨(hset now).of_carriesOn hcarries (by rw [hclock]; exact h.pace), hcommits.observer,
      hcommits.coalescer, hcommits.refused, hcommits.committed⟩

/-- **A session at work is stopped**: what is left is committed, and the log is closed. -/
theorem AtWork.stop (h : s.AtWork) :
    ∃ names log, commit s.names s.log s.coalescer.flush.2.committed = (names, log, none) ∧
      s.stop.log = log.freeze := by
  -- the consumer only finds the end of its queue
  have hstop :
      s.stop = ({ s with state := .stopping, consuming := false } : Session τ).endStop := by
    simp [Session.stop, h.state, beginStop, h.started, h.queue, landAll, h.scheduled, settle,
      consumeTimes, consume, h.consuming]
  have hopen : ({ s with state := .stopping, consuming := false } : Session τ).IsOpen :=
    ⟨h.isOpen.recorded, h.isOpen.frozen, by simp⟩
  rw [hstop]
  exact hopen.endStop

/-- **A recording**: the session is started, its consumer takes turns, and it is stopped. -/
def recording (s : Session τ) (turns : List (Turn τ)) : Session τ :=
  s.run (.start :: (turns.flatMap Turn.moves ++ [.stop]))

omit [Add τ] [LE τ] [DecidableLE τ] [LT τ] [DecidableLT τ] in
/-- **Two sessions have recorded the same.** -/
structure SameRecord (s t : Session τ) : Prop where
  observer : s.observer = t.observer
  coalescer : s.coalescer = t.coalescer
  names : s.names = t.names
  log : s.log = t.log

end Session

end Scribe
