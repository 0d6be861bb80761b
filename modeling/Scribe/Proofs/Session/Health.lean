import Scribe.Proofs.Session.Output

/-!
# Recordings do not fail

A session fails if what it handles is no event, if its coalescer refuses a candidate, or if its log
refuses an action. As long as only events are posted none of this happens: the coalescer keeps its
books over all that the observer yields, and what it settles has no number yet and comes to a log
that is open, so that the log gives it the next number.

`Scribe.Session.IsHealthy` is the invariant. It also says that the end of the queue is not lost
while a stop waits for the consumer, so that every stop comes to its end. The main statement is
`Scribe.Session.run_healthy`.
-/

namespace Scribe

/-! ### Numbers in a log -/

namespace ActionLog

/-- **The actions are numbered** from zero on. -/
def IsNumbered (log : ActionLog) : Prop :=
  log.actions.map (·.sequence) = (List.range log.actions.length).map Int.ofNat

variable {log : ActionLog}

theorem IsNumbered.nextSequence (h : log.IsNumbered) :
    log.nextSequence = log.actions.length := by
  obtain ⟨actions, frozen⟩ := log
  rcases List.eq_nil_or_concat' actions with rfl | ⟨before, a, rfl⟩
  · rfl
  · simp only [IsNumbered, List.map_append, List.map_cons, List.map_nil, List.length_append,
      List.length_singleton, List.range_succ] at h
    have hlast := List.singleton_inj.mp (List.append_inj_right' h rfl)
    simp [ActionLog.nextSequence, last?, hlast]

/-- **An action without a number** is given the next one. -/
theorem IsNumbered.append (h : log.IsNumbered) {a : Action} (ha : a.sequence = -1)
    {r : Action × ActionLog} (hr : log.append a = .ok r) : r.2.IsNumbered := by
  have hnew : a.isCommitted = false := by simp [Action.isCommitted, ha]
  rw [ActionLog.append] at hr
  split at hr
  · cases hr
  · simp only [hnew, Bool.false_and, Bool.false_eq_true, if_false, Except.ok.injEq] at hr
    subst hr
    simp only [IsNumbered, List.map_append, List.map_cons, List.map_nil, List.length_append,
      List.length_singleton, List.range_succ]
    rw [h, h.nextSequence]
    rfl

end ActionLog

namespace Session

variable {τ : Type} {s t : Session τ}

theorem isNumbered_commit {names : PageNames} {log : ActionLog} {settled : List Action}
    (h : log.IsNumbered) (hsequence : ∀ a ∈ settled, a.sequence = -1) :
    (commit names log settled).2.1.IsNumbered := by
  induction settled generalizing names log with
  | nil => exact h
  | cons a rest ih =>
    have hbound : (names.bind a).1.sequence = -1 := hsequence a List.mem_cons_self
    cases happend : log.append (names.bind a).1 with
    | error v =>
      simp only [commit, happend]
      exact h
    | ok r =>
      simp only [commit, happend]
      exact ih (h.append hbound happend) fun b hb => hsequence b (List.mem_cons_of_mem _ hb)

theorem isNumbered_publish (h : s.log.IsNumbered) {settled : List Action}
    (hsequence : ∀ a ∈ settled, a.sequence = -1) : (s.publish settled).log.IsNumbered := by
  have hcommit : (commit s.names s.log settled).2.1.IsNumbered := isNumbered_commit h hsequence
  rw [publish]
  split
  · exact h
  · split
    · next heq =>
      rw [heq] at hcommit
      exact hcommit
    · next heq =>
      rw [heq] at hcommit
      exact hcommit

theorem isNumbered_afterYield (h : s.log.IsNumbered) (m : Coalescer τ) {y : Yield}
    (hsequence : ∀ a ∈ y.committed, a.sequence = -1) : (s.afterYield m y).log.IsNumbered := by
  rw [afterYield]
  split
  · exact h
  · exact isNumbered_publish (s := { s with
      coalescer := m, warnings := s.warnings ++ y.missed.map MissedSignal.message }) h hsequence

/-! ### The session goes on -/

/-- Only a session that fails gets a reason for it. -/
theorem failure_afterYield {m : Coalescer τ} {y : Yield}
    (h : (s.afterYield m y).state ≠ .failed) : (s.afterYield m y).failure = s.failure := by
  rw [afterYield] at h ⊢
  split at h
  · exact absurd rfl h
  · next hrefused =>
    rw [if_neg hrefused]
    rw [publish] at h ⊢
    split at h
    · next hempty => rw [if_pos hempty]
    · next hempty =>
      rw [if_neg hempty]
      split at h
      · exact absurd rfl h
      · rfl

/-- **The session has gone on, and nothing has failed.** -/
structure CarriesOn (s t : Session τ) : Prop where
  control : s.SameControl t
  recorded : ∃ stream settled, t.Recorded stream settled
  failure : t.failure = s.failure
  queue : t.queue = s.queue
  scheduled : t.scheduled = s.scheduled
  numbered : s.log.IsNumbered → t.log.IsNumbered

theorem CarriesOn.goesOn (h : s.CarriesOn t) (hopen : s.log.frozen = false) : s.GoesOn t :=
  ⟨h.recorded, h.control.frozen.trans hopen, h.control.started,
    Or.inl ⟨h.control.state, h.control.consuming⟩⟩

/-- **What the coalescer settles is published**, if it keeps its books. -/
theorem carriesOn_afterYield {r : Coalescer τ × Yield} {stream : List Candidate}
    {settled : List Entry} (h : Published s.names s.log s.output (settled.map Entry.committed))
    (hopen : s.log.frozen = false) (hstate : s.state ≠ .failed)
    (hobserved : Observed s.observer stream)
    (hkeeps : Coalescer.Keeps (fun m settled => m.Books stream settled) settled r) :
    s.CarriesOn (s.afterYield r.1 r.2) := by
  obtain ⟨hcontrol, further, hrecorded⟩ := afterYield_of_keeps h hopen hobserved hkeeps
  refine ⟨hcontrol, ⟨_, _, hrecorded⟩, failure_afterYield ?_, queue_afterYield _ _ _,
    scheduled_afterYield _ _ _, fun hnumbered => ?_⟩
  · rw [hcontrol.state]
    exact hstate
  · exact isNumbered_afterYield hnumbered _ (sequence_of_keeps hobserved hkeeps)

section

variable [Add τ] [LE τ] [DecidableLE τ] [LT τ] [DecidableLT τ] {stream : List Candidate}
  {settled : List Entry}

/-- **An event is handled**, and nothing fails. -/
theorem carriesOn_handle (h : s.Recorded stream settled) (hopen : s.log.frozen = false)
    (hstate : s.state ≠ .failed) (e : Event) : s.CarriesOn (s.handle (some e)) := by
  have hobserved := h.observed.observe e
  have hkeeps := feedAll_keeps h.books
    (fun c hc => hobserved.observable c (List.mem_append_right _ hc)) s.clock.read.1
  obtain ⟨hcontrol, hrecorded, hfailure, hqueue, hscheduled, hnumbered⟩ := carriesOn_afterYield
    (s := { s with clock := s.clock.read.2, observer := (s.observer.observe e).2 })
    h.published hopen hstate hobserved hkeeps
  exact ⟨⟨hcontrol.state, hcontrol.started, hcontrol.consuming, hcontrol.frozen⟩, hrecorded,
    hfailure, hqueue, hscheduled, hnumbered⟩

/-- **A deadline is met**, and nothing fails. -/
theorem carriesOn_timeOut (h : s.Recorded stream settled) (hopen : s.log.frozen = false)
    (hstate : s.state ≠ .failed) : s.CarriesOn s.timeOut := by
  rw [timeOut]
  split
  · exact ⟨⟨rfl, rfl, rfl, rfl⟩, ⟨stream, settled, h⟩, rfl, rfl, rfl, id⟩
  · obtain ⟨hcontrol, hrecorded, hfailure, hqueue, hscheduled, hnumbered⟩ := carriesOn_afterYield
      (s := { s with clock := s.clock.read.2 }) h.published hopen hstate h.observed
      (h.books.tick s.clock.read.1)
    exact ⟨⟨hcontrol.state, hcontrol.started, hcontrol.consuming, hcontrol.frozen⟩, hrecorded,
      hfailure, hqueue, hscheduled, hnumbered⟩

/-! ### The invariant -/

omit [Add τ] [LE τ] [DecidableLE τ] [LT τ] [DecidableLT τ] in
/-- **A healthy session**: it has not failed, and nothing that waits in its queue will make it fail.
-/
structure IsHealthy (s : Session τ) : Prop where
  consistent : s.IsConsistent
  state : s.state ≠ .failed
  failure : s.failure = none
  /-- Only events are queued. -/
  events : QueueItem.posted none ∉ s.queue
  /-- Only events are scheduled to be. -/
  scheduled : none ∉ s.scheduled
  numbered : s.log.IsNumbered
  /-- A consumer that is to stop will come to the end of its queue. -/
  ending : s.state = .stopping → s.consuming = true → QueueItem.stop ∈ s.queue

omit [Add τ] [LE τ] [DecidableLE τ] [LT τ] [DecidableLT τ] in
theorem isHealthy_fresh (testIdAttribute : String) (signalWindow syncTimeout start : τ)
    (clock : Clock τ) : (fresh testIdAttribute signalWindow syncTimeout start clock).IsHealthy :=
  ⟨isConsistent_fresh _ _ _ _ _, by simp [fresh], rfl, by simp [fresh], by simp [fresh], rfl,
    by simp [fresh]⟩

omit [Add τ] [LE τ] [DecidableLE τ] [LT τ] [DecidableLT τ] in
/-- A healthy session that carries on stays healthy. -/
theorem IsHealthy.of_carriesOn (h : s.IsHealthy) (hopen : s.log.frozen = false)
    (hst : s.CarriesOn t) : t.IsHealthy where
  consistent := ⟨hst.recorded, (hst.goesOn hopen).governed h.consistent.governed hopen⟩
  state := by
    rw [hst.control.state]
    exact h.state
  failure := hst.failure.trans h.failure
  events := by
    rw [hst.queue]
    exact h.events
  scheduled := by
    rw [hst.scheduled]
    exact h.scheduled
  numbered := hst.numbered h.numbered
  ending := by
    rw [hst.control.state, hst.control.consuming, hst.queue]
    exact h.ending

/-! ### The consumer at work -/

theorem isHealthy_timeOut (h : s.IsHealthy) : s.timeOut.IsHealthy := by
  obtain ⟨stream, settled, hrecorded⟩ := h.consistent.recorded
  cases hfrozen : s.log.frozen with
  | true =>
    rw [timeOut, if_pos (by simp [h.consistent.governed.idle hfrozen])]
    exact h
  | false => exact h.of_carriesOn hfrozen (carriesOn_timeOut hrecorded hfrozen h.state)

/-- **The consumer takes an item.** -/
theorem isHealthy_consume (h : s.IsHealthy) : s.consume.IsHealthy ∧ s.consume.state = s.state := by
  have hconsistent := (isConsistent_consume h.consistent).1
  obtain ⟨stream, settled, hrecorded⟩ := h.consistent.recorded
  have hg := h.consistent.governed
  cases hconsuming : s.consuming with
  | false =>
    rw [consume, if_pos (by simp [hconsuming])]
    exact ⟨h, rfl⟩
  | true =>
    have hopen : s.log.frozen = false := by
      cases hfrozen : s.log.frozen with
      | false => rfl
      | true => exact absurd ((hg.idle hfrozen).symm.trans hconsuming) Bool.false_ne_true
    have hevents := h.events
    have hending := h.ending
    rw [consume, if_neg (by simp [hconsuming])] at hconsistent ⊢
    split at hconsistent
    · exact ⟨h, rfl⟩
    · next rest hqueue =>
      simp only [hqueue, List.mem_cons, reduceCtorEq, false_or] at hevents
      exact ⟨⟨hconsistent, h.state, h.failure, hevents, h.scheduled, h.numbered,
        fun _ hc => absurd hc Bool.false_ne_true⟩, rfl⟩
    · next e rest hqueue =>
      simp only [hqueue, List.mem_cons, reduceCtorEq, false_or] at hevents hending
      obtain ⟨e, rfl⟩ : ∃ event, e = some event := by
        cases e with
        | none => exact absurd (Or.inl rfl) hevents
        | some event => exact ⟨event, rfl⟩
      have hrest : ({ s with queue := rest } : Session τ).IsHealthy :=
        ⟨⟨⟨stream, settled, hrecorded⟩, hg.ended, hg.idle, hg.started, hg.failed, hg.closed⟩,
          h.state, h.failure, fun hmem => hevents (Or.inr hmem), h.scheduled, h.numbered, hending⟩
      have hcarries := carriesOn_handle (s := { s with queue := rest }) hrecorded hopen h.state e
      exact ⟨hrest.of_carriesOn hopen hcarries, hcarries.control.state⟩

theorem isHealthy_consumeTimes (h : s.IsHealthy) (n : ℕ) :
    (consumeTimes n s).IsHealthy ∧ (consumeTimes n s).state = s.state := by
  induction n generalizing s with
  | zero => exact ⟨h, rfl⟩
  | succ n ih =>
    obtain ⟨hconsume, hstate⟩ := isHealthy_consume h
    obtain ⟨htimes, hstate'⟩ := ih hconsume
    exact ⟨htimes, hstate'.trans hstate⟩

/-! ### What comes into the queue -/

omit [Add τ] [LE τ] [DecidableLE τ] [LT τ] [DecidableLT τ] in
/-- Something that was posted comes into the queue. -/
theorem IsHealthy.queued (h : s.IsHealthy) {e : Option Event} (he : e ≠ none)
    {scheduled : List (Option Event)} (hscheduled : none ∉ scheduled) :
    ({ s with queue := s.queue ++ [.posted e], scheduled := scheduled } : Session τ).IsHealthy := by
  have hg := h.consistent.governed
  refine ⟨⟨h.consistent.recorded, hg.ended, hg.idle, hg.started, hg.failed, hg.closed⟩, h.state,
    h.failure, ?_, hscheduled, h.numbered, fun hstate hc => ?_⟩
  · simpa [h.events] using Ne.symm he
  · exact List.mem_append_left _ (h.ending hstate hc)

omit [Add τ] [LE τ] [DecidableLE τ] [LT τ] [DecidableLT τ] in
/-- **What was scheduled first** comes into the queue. -/
theorem isHealthy_land (h : s.IsHealthy) : s.land.IsHealthy := by
  have hscheduled := h.scheduled
  rw [land]
  split
  · exact h
  · next e rest heq =>
    rw [heq, List.mem_cons, not_or] at hscheduled
    exact h.queued (Ne.symm hscheduled.1) hscheduled.2

theorem isHealthy_landAll (h : s.IsHealthy) : s.landAll.IsHealthy := by
  rw [← run_replicate_land]
  generalize s.scheduled.length = n
  induction n generalizing s with
  | zero => exact h
  | succ n ih => exact ih (isHealthy_land h)

/-! ### Stopping -/

/-- **A queue of events is worked off** without a consumer, and nothing fails. -/
theorem isHealthy_handleQueued (h : s.IsHealthy) (hopen : s.log.frozen = false)
    (hidle : s.consuming = false) {queue : List QueueItem}
    (hevents : QueueItem.posted none ∉ queue) :
    (s.handleQueued queue).IsHealthy ∧ s.SameControl (s.handleQueued queue) := by
  induction queue generalizing s with
  | nil =>
    have hg := h.consistent.governed
    exact ⟨⟨⟨h.consistent.recorded, hg.ended, hg.idle, hg.started, hg.failed, hg.closed⟩, h.state,
      h.failure, by simp [handleQueued], h.scheduled, h.numbered,
      fun _ hc => absurd (hidle.symm.trans hc) Bool.false_ne_true⟩, rfl, rfl, rfl, rfl⟩
  | cons item rest ih =>
    rw [List.mem_cons, not_or] at hevents
    obtain ⟨hitem, hrest⟩ := hevents
    have hg := h.consistent.governed
    have hnext : ({ s with queue := rest } : Session τ).IsHealthy :=
      ⟨⟨h.consistent.recorded, hg.ended, hg.idle, hg.started, hg.failed, hg.closed⟩, h.state,
        h.failure, hrest, h.scheduled, h.numbered,
        fun _ hc => absurd (hidle.symm.trans hc) Bool.false_ne_true⟩
    cases item with
    | stop =>
      obtain ⟨hhealthy, hcontrol⟩ := ih hnext hopen hidle hrest
      exact ⟨hhealthy, hcontrol.state, hcontrol.started, hcontrol.consuming, hcontrol.frozen⟩
    | posted e =>
      obtain ⟨e, rfl⟩ : ∃ event, e = some event := by
        cases e with
        | none => exact absurd rfl hitem
        | some event => exact ⟨event, rfl⟩
      obtain ⟨stream, settled, hrecorded⟩ := h.consistent.recorded
      have hcarries := carriesOn_handle (s := { s with queue := rest }) hrecorded hopen h.state e
      have hhandled := hnext.of_carriesOn hopen hcarries
      obtain ⟨hhealthy, hcontrol⟩ := ih hhandled (hcarries.control.frozen.trans hopen)
        (hcarries.control.consuming.trans hidle) hrest
      rw [handleQueued, if_neg (by simpa using hhandled.state)]
      exact ⟨hhealthy, hcontrol.state.trans hcarries.control.state,
        hcontrol.started.trans hcarries.control.started,
        hcontrol.consuming.trans hcarries.control.consuming,
        hcontrol.frozen.trans hcarries.control.frozen⟩

/-- **A stop begins.** -/
theorem isHealthy_beginStop (h : s.IsHealthy) (hstate : s.state.isHalted = false) :
    s.beginStop.IsHealthy ∧ s.beginStop.state = .stopping := by
  have hconsistent := (isConsistent_beginStop h.consistent hstate).1
  have hopen : s.log.frozen = false := by
    refine h.consistent.governed.not_frozen ?_ ?_ <;> rintro hs <;> rw [hs] at hstate <;>
      cases hstate
  rw [beginStop] at hconsistent ⊢
  dsimp only at hconsistent ⊢
  split at hconsistent
  · next hstarted =>
    rw [if_pos hstarted]
    exact ⟨⟨hconsistent, by simp, h.failure, by simp [h.events], h.scheduled, h.numbered, by simp⟩,
      rfl⟩
  · next hstarted =>
    rw [if_neg hstarted]
    have hg := h.consistent.governed
    have hidle : s.consuming = false := by
      cases hconsuming : s.consuming with
      | false => rfl
      | true => exact absurd (hg.started hconsuming) hstarted
    have hstopping : ({ s with state := .stopping } : Session τ).IsHealthy := by
      refine ⟨⟨h.consistent.recorded, ?_, hg.idle, hg.started, by simp, by simp⟩, by simp,
        h.failure, h.events, h.scheduled, h.numbered,
        fun _ hc => absurd (hidle.symm.trans hc) Bool.false_ne_true⟩
      exact fun hfrozen => absurd (hopen.symm.trans hfrozen) Bool.false_ne_true
    obtain ⟨hhealthy, hcontrol⟩ :=
      isHealthy_handleQueued hstopping hopen hidle h.events
    exact ⟨hhealthy, hcontrol.state⟩

omit [LT τ] [DecidableLT τ] in
/-- **A stop ends**, and the session has stopped. -/
theorem isHealthy_endStop (h : s.IsHealthy) (hidle : s.consuming = false)
    (hstate : s.state ≠ .stopped) : s.endStop.IsHealthy ∧ s.endStop.state = .stopped := by
  have hconsistent := (isConsistent_endStop h.consistent hidle hstate).1
  obtain ⟨stream, settled, hrecorded⟩ := h.consistent.recorded
  have hopen := h.consistent.governed.not_frozen hstate h.state
  have hcarries := carriesOn_afterYield hrecorded.published hopen h.state hrecorded.observed
    hrecorded.books.flush_books
  have hhealthy := h.of_carriesOn hopen hcarries
  rw [endStop, if_neg (by simpa using h.state)] at hconsistent ⊢
  dsimp only at hconsistent ⊢
  rw [if_neg (by simpa using hhealthy.state)] at hconsistent ⊢
  exact ⟨⟨hconsistent, by simp [freeze], hhealthy.failure, hhealthy.events, hhealthy.scheduled,
    hhealthy.numbered, by simp [freeze]⟩, rfl⟩

/-- **A stop**, unless another is under way, leaves the session stopped. -/
theorem isHealthy_stop (h : s.IsHealthy) :
    s.stop.IsHealthy ∧ (s.state ≠ .stopping → s.stop.state = .stopped) := by
  have hwhole (hhalted : s.state.isHalted = false) :
      s.beginStop.landAll.settle.endStop.IsHealthy ∧
        s.beginStop.landAll.settle.endStop.state = .stopped := by
    obtain ⟨hbegin, hstopping⟩ := isHealthy_beginStop h hhalted
    obtain ⟨-, -, hend⟩ := isConsistent_beginStop h.consistent hhalted
    obtain ⟨hsettle, hstate⟩ := isHealthy_consumeTimes (isHealthy_landAll hbegin)
      s.beginStop.landAll.queue.length
    refine isHealthy_endStop hsettle (consuming_settle_landAll hend) ?_
    change s.beginStop.landAll.state = .stopping at hstopping
    rw [settle, hstate, hstopping]
    simp
  rw [stop]
  split
  · next hstate => exact ⟨h, fun _ => hstate⟩
  · next hstate => exact ⟨h, fun hne => absurd hstate hne⟩
  · next hstate => exact absurd hstate h.state
  · next hstate =>
    obtain ⟨hhealthy, hstopped⟩ := hwhole (by rw [hstate]; rfl)
    exact ⟨hhealthy, fun _ => hstopped⟩
  · next hstate =>
    obtain ⟨hhealthy, hstopped⟩ := hwhole (by rw [hstate]; rfl)
    exact ⟨hhealthy, fun _ => hstopped⟩

/-! ### Runs -/

omit [Add τ] [LE τ] [DecidableLE τ] [LT τ] [DecidableLT τ] in
/-- Whether a move posts nothing but events. -/
def Move.postsEvents : Move τ → Bool
  | .post e | .postElsewhere e => e.isSome
  | _ => true

/-- **Every move that posts nothing but events keeps a session healthy.** -/
theorem isHealthy_perform (h : s.IsHealthy) {m : Move τ} (hm : m.postsEvents = true) :
    (s.perform m).IsHealthy := by
  have hconsistent := isConsistent_perform h.consistent m
  cases m with
  | post e =>
    rw [perform_post]
    split
    · exact h
    · exact h.queued (Option.isSome_iff_ne_none.mp hm) h.scheduled
  | postElsewhere e =>
    have he := Option.isSome_iff_ne_none.mp hm
    rw [perform_postElsewhere] at hconsistent ⊢
    split
    · exact h
    split
    · next hhalted hstarted =>
      rw [if_neg hhalted, if_pos hstarted] at hconsistent
      refine ⟨hconsistent, h.state, h.failure, h.events, ?_, h.numbered, h.ending⟩
      simpa [h.scheduled] using Ne.symm he
    · exact h.queued he h.scheduled
  | land => exact isHealthy_land h
  | start =>
    rw [perform, start] at hconsistent ⊢
    split
    · exact h
    split
    · exact h
    · next hstarted hstate =>
      rw [if_neg hstarted, if_neg hstate] at hconsistent
      exact ⟨hconsistent, by simp [Except.toOption], h.failure, h.events, h.scheduled, h.numbered,
        by simp [Except.toOption]⟩
  | consume => exact (isHealthy_consume h).1
  | timeOut => exact isHealthy_timeOut h
  | setClock now =>
    exact ⟨hconsistent, h.state, h.failure, h.events, h.scheduled, h.numbered, h.ending⟩
  | beginStop =>
    rw [perform]
    split
    · exact h
    · next hstate => exact (isHealthy_beginStop h (Bool.eq_false_iff.mpr hstate)).1
  | endStop =>
    rw [perform]
    split
    · next hcan =>
      obtain ⟨hstate, hidle⟩ := canEndStop_iff.mp hcan
      refine (isHealthy_endStop h hidle ?_).1
      rcases hstate with hstate | hstate <;> rw [hstate] <;> simp
    · exact h
  | stop => exact (isHealthy_stop h).1

theorem isHealthy_run (h : s.IsHealthy) {moves : List (Move τ)}
    (hmoves : ∀ m ∈ moves, m.postsEvents = true) : (s.run moves).IsHealthy := by
  induction moves generalizing s with
  | nil => exact h
  | cons m rest ih =>
    exact ih (isHealthy_perform h (hmoves m List.mem_cons_self))
      fun m hm => hmoves m (List.mem_cons_of_mem _ hm)

theorem state_of_completesStop (h : s.IsHealthy) {m : Move τ} (hm : s.completesStop m = true) :
    (s.perform m).state = .stopped := by
  cases m with
  | stop => exact (isHealthy_stop h).2 (by simpa [completesStop] using hm)
  | endStop =>
    have hcan : s.canEndStop = true := hm
    obtain ⟨hstate, hidle⟩ := canEndStop_iff.mp hcan
    rw [perform, if_pos hcan]
    refine (isHealthy_endStop h hidle ?_).2
    rcases hstate with hstate | hstate <;> rw [hstate] <;> simp
  | post e | postElsewhere e | land | start | consume | timeOut | setClock now | beginStop =>
    cases hm

/-- A stop that has begun can end once the consumer has taken enough items. -/
theorem exists_canEndStop (h : s.IsHealthy) (hstate : s.state = .stopping) :
    ∃ n, (consumeTimes n s).canEndStop = true := by
  cases hconsuming : s.consuming with
  | false => exact ⟨0, canEndStop_iff.mpr ⟨Or.inl hstate, hconsuming⟩⟩
  | true =>
    obtain ⟨before, after, hqueue⟩ := List.append_of_mem (h.ending hstate hconsuming)
    refine ⟨before.length + 1, canEndStop_iff.mpr ⟨Or.inl ?_, ?_⟩⟩
    · rw [(isHealthy_consumeTimes h _).2, hstate]
    · exact consuming_consumeTimes hqueue (Nat.lt_succ_self _)

/-- **A session that only events are posted to never fails**, whatever they tell, and whenever it is
started and stopped. A stop that completes leaves it stopped, and one that waits for the consumer
completes once this has taken enough items. The actions in the log are numbered from zero on. -/
theorem run_healthy (testIdAttribute : String) (signalWindow syncTimeout start : τ)
    (clock : Clock τ) (moves : List (Move τ)) (hevents : ∀ m ∈ moves, m.postsEvents = true) :
    let s := (fresh testIdAttribute signalWindow syncTimeout start clock).run moves
    s.state ≠ .failed ∧ s.failure = none ∧
      (∀ m, s.completesStop m = true → (s.perform m).state = .stopped) ∧
      (s.state = .stopping → ∃ n, (consumeTimes n s).completesStop .endStop = true) ∧
      s.log.actions.map (·.sequence) = (List.range s.log.actions.length).map Int.ofNat := by
  intro s
  have hhealthy : s.IsHealthy :=
    isHealthy_run (isHealthy_fresh testIdAttribute signalWindow syncTimeout start clock) hevents
  exact ⟨hhealthy.state, hhealthy.failure, fun m hm => state_of_completesStop hhealthy hm,
    exists_canEndStop hhealthy, hhealthy.numbered⟩

end

/-- A page is opened and a button clicked, the click expires, and a stop begins: two actions are
numbered, and the stop will come to its end. -/
theorem run_healthy_of_click :
    let s := (fresh "data-testid" 1 5 0 (.still 0) : Session ℕ).run
      [.start, .post (some ⟨"p1", 0, false, .opened none⟩),
        .post (some ⟨"p1", 0, false, .gesture
          { element := some "e1", snapshot := some ⟨[{ ref := "e1", tag := "button" }]⟩ }
          (.click .left 1 none)⟩),
        .consume, .consume, .setClock 3, .timeOut, .beginStop]
    s.state ≠ .failed ∧ s.log.actions.map (·.sequence) = [0, 1] ∧
      ∃ n, (consumeTimes n s).completesStop .endStop = true := by
  intro s
  obtain ⟨hstate, -, -, hstop, hnumbers⟩ := run_healthy "data-testid" 1 5 0 (.still 0)
    [.start, .post (some ⟨"p1", 0, false, .opened none⟩),
      .post (some ⟨"p1", 0, false, .gesture
        { element := some "e1", snapshot := some ⟨[{ ref := "e1", tag := "button" }]⟩ }
        (.click .left 1 none)⟩),
      .consume, .consume, .setClock 3, .timeOut, .beginStop]
    (by simp [Move.postsEvents])
  have hlength : s.log.actions.length = 2 := by decide +kernel
  refine ⟨hstate, ?_, hstop (by decide +kernel)⟩
  rw [hnumbers, hlength]
  decide

end Session

end Scribe
