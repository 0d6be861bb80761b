import Scribe.Proofs.Session.Commit

/-!
# Runs of a session

A session is moved from outside – something is posted, by its own thread or by another, it is
started, it is stopped – and by its consumer, which takes items from the queue and wakes when a
deadline has come. What another thread has posted comes into the queue in a move of its own.
`Scribe.Session.Move` lists the moves, and `Scribe.Session.run` makes them in any order, a move that
is refused or not possible changing nothing. A stop may be one move, or a beginning and an end with
other moves in between, while it waits for the consumer. A drain is made up of other moves
(`Scribe.Session.drain_eq_run`).

`Scribe.Session.IsConsistent` is the invariant. It has two parts: what is recorded agrees
(`Scribe.Session.Recorded`), and a closed log belongs to a session that is over
(`Scribe.Session.Governed`), so that nothing comes to a closed log. The run lemma is
`Scribe.Session.isConsistent_run`.
-/

namespace Scribe

namespace Session

variable {τ : Type}

/-! ### Moves -/

/-- **A move** of a session. -/
inductive Move (τ : Type) where
  /-- An event is posted, or something else. -/
  | post (e : Option Event)
  /-- The same from another thread. -/
  | postElsewhere (e : Option Event)
  /-- What is scheduled comes into the queue, one at a time. -/
  | land
  | start
  /-- The consumer takes an item from the queue. -/
  | consume
  /-- The consumer has waited long enough. -/
  | timeOut
  /-- The clock shows another time. -/
  | setClock (now : τ)
  | beginStop
  /-- A stop that was waiting for the consumer goes on to its end. -/
  | endStop
  | stop

/-- Whether a stop can end: it has begun or the session has failed, and the consumer is done. -/
def canEndStop (s : Session τ) : Bool :=
  (s.state == .stopping || s.state == .failed) && !s.consuming

theorem canEndStop_iff {s : Session τ} :
    s.canEndStop = true ↔ (s.state = .stopping ∨ s.state = .failed) ∧ s.consuming = false := by
  simp [canEndStop]

section

variable [Add τ] [LE τ] [DecidableLE τ] [LT τ] [DecidableLT τ]

/-- **What a move does.** -/
def perform (s : Session τ) : Move τ → Session τ
  | .post e => (s.post e).toOption.getD s
  | .postElsewhere e => (s.postElsewhere e).toOption.getD s
  | .land => s.land
  | .start => s.start.toOption.getD s
  | .consume => s.consume
  | .timeOut => s.timeOut
  | .setClock now => { s with clock := { s.clock with now := now } }
  | .beginStop => if s.state.isHalted then s else s.beginStop
  | .endStop => if s.canEndStop then s.endStop else s
  | .stop => s.stop

/-- **A post** puts what is posted into the queue, unless the session takes nothing. -/
theorem perform_post (s : Session τ) (e : Option Event) : s.perform (.post e) =
    if s.state.isHalted then s else { s with queue := s.queue ++ [.posted e] } := by
  rw [perform, post]
  split <;> rfl

/-- **A post from another thread** only schedules that, if the session was started. -/
theorem perform_postElsewhere (s : Session τ) (e : Option Event) : s.perform (.postElsewhere e) =
    if s.state.isHalted then s
    else if s.started then { s with scheduled := s.scheduled ++ [e] }
    else { s with queue := s.queue ++ [.posted e] } := by
  rw [perform, postElsewhere]
  split
  · rfl
  · split <;> rfl

theorem perform_land_of_nil {s : Session τ} (h : s.scheduled = []) : s.perform .land = s := by
  rw [perform, land, h]

/-- **What was scheduled first** comes into the queue. -/
theorem perform_land_of_cons {s : Session τ} {e : Option Event} {rest : List (Option Event)}
    (h : s.scheduled = e :: rest) :
    s.perform .land = { s with queue := s.queue ++ [.posted e], scheduled := rest } := by
  rw [perform, land, h]

/-- **A run**: one move after another. -/
def run (s : Session τ) : List (Move τ) → Session τ
  | [] => s
  | m :: rest => (s.perform m).run rest

theorem run_append (s : Session τ) (first second : List (Move τ)) :
    s.run (first ++ second) = (s.run first).run second := by
  induction first generalizing s with
  | nil => rfl
  | cons m rest ih => exact ih _

/-- **The consumer handles** all that is queued, item by item. -/
theorem run_replicate_consume (s : Session τ) (n : ℕ) :
    s.run (List.replicate n .consume) = consumeTimes n s := by
  induction n generalizing s with
  | zero => rfl
  | succ n ih => exact ih _

/-- **All that is scheduled** comes into the queue one after the other. -/
theorem run_replicate_land (s : Session τ) :
    s.run (List.replicate s.scheduled.length .land) = s.landAll := by
  obtain ⟨scheduled, hscheduled⟩ : ∃ scheduled, s.scheduled = scheduled := ⟨_, rfl⟩
  rw [hscheduled]
  induction scheduled generalizing s with
  | nil =>
    cases s
    cases hscheduled
    simp [landAll, run]
  | cons e rest ih =>
    rw [List.length_cons, List.replicate_succ, run, perform_land_of_cons hscheduled, ih _ rfl]
    simp [landAll, hscheduled]

/-- **A drain**, when a consumer is at work, lets all that is scheduled come into the queue, and the
consumer take all that is queued then. -/
theorem drain_eq_run (s : Session τ) : s.drain =
    if s.consuming then s.run (List.replicate s.scheduled.length .land ++
      List.replicate (s.queue.length + s.scheduled.length) .consume)
    else s := by
  rw [drain, run_append, run_replicate_land, run_replicate_consume, settle]
  simp [landAll]

end

/-- **A session that nothing was posted to.** -/
def fresh (testIdAttribute : String) (signalWindow syncTimeout start : τ) (clock : Clock τ) :
    Session τ where
  clock := clock
  observer := { testIdAttribute := testIdAttribute }
  coalescer := .fresh signalWindow syncTimeout start
  output := .ofCatalog .standard

/-- A new session is a fresh one, or none. -/
theorem new?_eq [OfNat τ 0] [LT τ] [DecidableLT τ] (testIdAttribute : String)
    (signalWindow syncTimeout : τ) (clock : Clock τ) :
    new? testIdAttribute signalWindow syncTimeout clock =
      if signalWindow < 0 ∨ syncTimeout < 0 then none
      else some (fresh testIdAttribute signalWindow syncTimeout 0 clock) := by
  rw [new?, Coalescer.new?]
  split <;> rfl

/-! ### The invariant -/

/-- **A closed log belongs to a session that is over.** -/
structure Governed (s : Session τ) : Prop where
  /-- A log is closed only when the session has stopped or failed. -/
  ended : s.log.frozen = true → s.state = .stopped ∨ s.state = .failed
  /-- The consumer is not at work on a closed log. -/
  idle : s.log.frozen = true → s.consuming = false
  /-- Only a consumer that was started is at work. -/
  started : s.consuming = true → s.started = true
  /-- The consumer of a failed session is not at work. -/
  failed : s.state = .failed → s.consuming = false
  /-- The log of a stopped session is closed. -/
  closed : s.state = .stopped → s.log.frozen = true

/-- **A consistent session.** -/
structure IsConsistent (s : Session τ) : Prop where
  recorded : ∃ stream settled, s.Recorded stream settled
  governed : s.Governed

theorem isConsistent_fresh (testIdAttribute : String) (signalWindow syncTimeout start : τ)
    (clock : Clock τ) :
    (fresh testIdAttribute signalWindow syncTimeout start clock).IsConsistent := by
  refine ⟨⟨[], [], .empty testIdAttribute, Coalescer.books_fresh _ _ _, .empty, rfl, rfl, rfl⟩,
    ⟨?_, ?_, ?_, ?_, ?_⟩⟩ <;> intro h <;> cases h

variable {s t : Session τ}

theorem Governed.not_frozen (h : s.Governed) (hstate : s.state ≠ .stopped)
    (hfailed : s.state ≠ .failed) : s.log.frozen = false := by
  cases hfrozen : s.log.frozen with
  | false => rfl
  | true =>
    rcases h.ended hfrozen with hs | hs
    · exact absurd hs hstate
    · exact absurd hs hfailed

/-- **The session has gone on**: what is recorded agrees, the log is open, and the session has
failed at most. -/
structure GoesOn (s t : Session τ) : Prop where
  recorded : ∃ stream settled, t.Recorded stream settled
  frozen : t.log.frozen = false
  started : t.started = s.started
  control : (t.state = s.state ∧ t.consuming = s.consuming) ∨
    (t.state = .failed ∧ t.consuming = false)

theorem GoesOn.governed (h : s.GoesOn t) (hs : s.Governed) (hopen : s.log.frozen = false) :
    t.Governed where
  ended hfrozen := absurd (h.frozen.symm.trans hfrozen) Bool.false_ne_true
  idle hfrozen := absurd (h.frozen.symm.trans hfrozen) Bool.false_ne_true
  started hconsuming := by
    rw [h.started]
    rcases h.control with ⟨-, hc⟩ | ⟨-, hc⟩
    · exact hs.started (hc ▸ hconsuming)
    · exact absurd (hc.symm.trans hconsuming) Bool.false_ne_true
  failed hfailed := by
    rcases h.control with ⟨hstate, hc⟩ | ⟨-, hc⟩
    · exact hc.trans (hs.failed (hstate ▸ hfailed))
    · exact hc
  closed hstopped := by
    rcases h.control with ⟨hstate, -⟩ | ⟨hstate, -⟩
    · exact absurd (hopen.symm.trans (hs.closed (hstate ▸ hstopped))) Bool.false_ne_true
    · exact absurd (hstate.symm.trans hstopped) (by simp)

/-! ### The consumer at work -/

section

variable [Add τ] [LE τ] [DecidableLE τ] [LT τ] [DecidableLT τ]

/-- Candidates of the observer are fed, and the time goes by. -/
theorem feedAll_keeps {m : Coalescer τ} {fed stream : List Candidate} {settled : List Entry}
    (h : m.Books fed settled) (hstream : ∀ c ∈ stream, Observable c) (now : τ) :
    Coalescer.Keeps (fun m settled => m.Books (fed ++ stream) settled) settled
      (feedAll m now stream) := by
  induction stream generalizing m fed settled with
  | nil =>
    rw [List.append_nil]
    exact h.tick now
  | cons c rest ih =>
    obtain ⟨e, hfresh, rfl, hn⟩ :
        ∃ e : Entry, e.IsFresh ∧ e.candidate = c ∧ e.number = fed.length := by
      cases c with
      | action c => exact ⟨_, .action c fed.length, rfl, rfl⟩
      | signal c => exact ⟨_, .standalone c fed.length, rfl, rfl⟩
      | foreign => exact nomatch hstream .foreign List.mem_cons_self
    have hfeed := h.feed hfresh hn now
    simp only [feedAll, hfeed.1, Bool.false_eq_true, if_false]
    refine hfeed.append fun further hfurther => ?_
    have hrest := ih hfurther fun d hd => hstream d (List.mem_cons_of_mem _ hd)
    simpa using hrest

/-- **An event is handled.** -/
theorem goesOn_handle {stream : List Candidate} {settled : List Entry}
    (h : s.Recorded stream settled) (hopen : s.log.frozen = false) (e : Option Event) :
    s.GoesOn (s.handle e) := by
  cases e with
  | none => exact ⟨⟨stream, settled, h⟩, hopen, rfl, Or.inr ⟨rfl, rfl⟩⟩
  | some e =>
    have hobserved := h.observed.observe e
    have hkeeps := feedAll_keeps h.books
      (fun c hc => hobserved.observable c (List.mem_append_right _ hc)) s.clock.read.1
    obtain ⟨hcontrol, further, hrecorded⟩ := afterYield_of_keeps
      (s := { s with clock := s.clock.read.2, observer := (s.observer.observe e).2 })
      h.published hopen hobserved hkeeps
    exact ⟨⟨_, _, hrecorded⟩, hcontrol.frozen.trans hopen, hcontrol.started,
      Or.inl ⟨hcontrol.state, hcontrol.consuming⟩⟩

/-- **A deadline is met.** -/
theorem goesOn_timeOut {stream : List Candidate} {settled : List Entry}
    (h : s.Recorded stream settled) (hopen : s.log.frozen = false) : s.GoesOn s.timeOut := by
  rw [timeOut]
  split
  · exact ⟨⟨stream, settled, h⟩, hopen, rfl, Or.inl ⟨rfl, rfl⟩⟩
  · obtain ⟨hcontrol, further, hrecorded⟩ := afterYield_of_keeps
      (s := { s with clock := s.clock.read.2 }) h.published hopen h.observed
      (h.books.tick s.clock.read.1)
    exact ⟨⟨_, _, hrecorded⟩, hcontrol.frozen.trans hopen, hcontrol.started,
      Or.inl ⟨hcontrol.state, hcontrol.consuming⟩⟩

/-- **The consumer takes an item.** -/
theorem isConsistent_consume (h : s.IsConsistent) :
    s.consume.IsConsistent ∧ s.consume.log.frozen = s.log.frozen := by
  obtain ⟨stream, settled, hrecorded⟩ := h.recorded
  rw [consume]
  split
  · exact ⟨h, rfl⟩
  next hconsuming =>
  have hconsuming : s.consuming = true := by simpa using hconsuming
  have hopen : s.log.frozen = false := by
    cases hfrozen : s.log.frozen with
    | false => rfl
    | true => exact absurd (h.governed.idle hfrozen ▸ hconsuming) Bool.false_ne_true
  split
  · exact ⟨h, rfl⟩
  · exact ⟨⟨h.recorded, h.governed.ended, fun _ => rfl, fun hc => absurd hc Bool.false_ne_true,
      fun _ => rfl, h.governed.closed⟩, rfl⟩
  · next e rest _ =>
    have hgoesOn := goesOn_handle (s := { s with queue := rest }) hrecorded hopen e
    have hgoverned := hgoesOn.governed ⟨h.governed.ended, h.governed.idle, h.governed.started,
      h.governed.failed, h.governed.closed⟩ hopen
    exact ⟨⟨hgoesOn.recorded, hgoverned⟩, hgoesOn.frozen.trans hopen.symm⟩

theorem isConsistent_timeOut (h : s.IsConsistent) : s.timeOut.IsConsistent := by
  obtain ⟨stream, settled, hrecorded⟩ := h.recorded
  cases hfrozen : s.log.frozen with
  | true =>
    rw [timeOut, if_pos (by simp [h.governed.idle hfrozen])]
    exact h
  | false =>
    have hgoesOn := goesOn_timeOut hrecorded hfrozen
    exact ⟨hgoesOn.recorded, hgoesOn.governed h.governed hfrozen⟩

omit [Add τ] [LE τ] [DecidableLE τ] [LT τ] [DecidableLT τ] in
/-- What comes into the queue changes nothing that is recorded. -/
theorem isConsistent_landAll (h : s.IsConsistent) : s.landAll.IsConsistent :=
  ⟨h.recorded, h.governed.ended, h.governed.idle, h.governed.started, h.governed.failed,
    h.governed.closed⟩

theorem isConsistent_consumeTimes (h : s.IsConsistent) (n : ℕ) :
    (consumeTimes n s).IsConsistent ∧ (consumeTimes n s).log.frozen = s.log.frozen := by
  induction n generalizing s with
  | zero => exact ⟨h, rfl⟩
  | succ n ih =>
    obtain ⟨hconsume, hfrozen⟩ := isConsistent_consume h
    obtain ⟨htimes, hfrozen'⟩ := ih hconsume
    exact ⟨htimes, hfrozen'.trans hfrozen⟩

/-! ### The consumer comes to its end

Once the end is queued, the consumer gets there if it takes enough items. -/

theorem consumeTimes_of_idle (h : s.consuming = false) (n : ℕ) : consumeTimes n s = s := by
  induction n with
  | zero => rfl
  | succ n ih =>
    rw [consumeTimes, consume, if_pos (by simp [h])]
    exact ih

omit [Add τ] [LE τ] [DecidableLE τ] [LT τ] [DecidableLT τ] in
theorem queue_afterYield (s : Session τ) (m : Coalescer τ) (y : Yield) :
    (s.afterYield m y).queue = s.queue := by
  rw [afterYield]
  split
  · rfl
  · rw [publish]
    split
    · rfl
    · split <;> rfl

omit [Add τ] [LE τ] [DecidableLE τ] [LT τ] [DecidableLT τ] in
theorem scheduled_afterYield (s : Session τ) (m : Coalescer τ) (y : Yield) :
    (s.afterYield m y).scheduled = s.scheduled := by
  rw [afterYield]
  split
  · rfl
  · rw [publish]
    split
    · rfl
    · split <;> rfl

theorem queue_handle (s : Session τ) (e : Option Event) : (s.handle e).queue = s.queue := by
  cases e with
  | none => rfl
  | some e => exact queue_afterYield _ _ _

theorem scheduled_handle (s : Session τ) (e : Option Event) :
    (s.handle e).scheduled = s.scheduled := by
  cases e with
  | none => rfl
  | some e => exact scheduled_afterYield _ _ _

theorem consuming_consumeTimes {before after : List QueueItem} {n : ℕ}
    (hqueue : s.queue = before ++ .stop :: after) (hn : before.length < n) :
    (consumeTimes n s).consuming = false := by
  induction before generalizing s n with
  | nil =>
    -- the end is the next item, and after it nothing is consumed
    obtain ⟨n, rfl⟩ := Nat.exists_eq_succ_of_ne_zero (Nat.ne_of_gt hn)
    have hidle : s.consume.consuming = false := by
      rw [consume]
      split
      · next h => simpa using h
      · rw [hqueue]
        rfl
    rw [consumeTimes, consumeTimes_of_idle hidle]
    exact hidle
  | cons item before ih =>
    rw [List.length_cons] at hn
    obtain ⟨n, rfl⟩ := Nat.exists_eq_succ_of_ne_zero (Nat.ne_of_gt (Nat.zero_lt_of_lt hn))
    rw [consumeTimes]
    cases hconsuming : s.consuming with
    | false =>
      have hidle : s.consume.consuming = false := by
        rw [consume, if_pos (by simp [hconsuming])]
        exact hconsuming
      rw [consumeTimes_of_idle hidle]
      exact hidle
    | true =>
      cases item with
      | stop =>
        have hidle : s.consume.consuming = false := by
          rw [consume, if_neg (by simp [hconsuming]), hqueue]
          rfl
        rw [consumeTimes_of_idle hidle]
        exact hidle
      | posted e =>
        -- the item is handled and leaves the queue, and nothing is queued meanwhile
        refine ih ?_ (Nat.lt_of_succ_lt_succ hn)
        rw [consume, if_neg (by simp [hconsuming]), hqueue]
        exact queue_handle _ _

/-- **After a stop has begun** the consumer is done once it has taken what is queued: it never was
at work, or it has come to the end of its queue. -/
theorem consuming_settle_landAll
    (h : s.consuming = false ∨ ∃ before, s.queue = before ++ [.stop]) :
    s.landAll.settle.consuming = false := by
  rcases h with hidle | ⟨before, hqueue⟩
  · rw [settle, consumeTimes_of_idle (s := s.landAll) hidle]
    exact hidle
  · have hqueue' : s.landAll.queue = before ++ .stop :: s.scheduled.map .posted := by
      simp [landAll, hqueue]
    exact consuming_consumeTimes hqueue' (by simp [hqueue'])

/-! ### Stopping -/

/-- **A queue is worked off** without a consumer. -/
theorem goesOn_handleQueued {stream : List Candidate} {settled : List Entry}
    (h : s.Recorded stream settled) (hopen : s.log.frozen = false) (queue : List QueueItem) :
    s.GoesOn (s.handleQueued queue) := by
  induction queue generalizing s stream settled with
  | nil => exact ⟨⟨stream, settled, h⟩, hopen, rfl, Or.inl ⟨rfl, rfl⟩⟩
  | cons item rest ih =>
    cases item with
    | stop =>
      obtain ⟨hrecorded, hfrozen, hstarted, hcontrol⟩ := ih (s := { s with queue := rest }) h hopen
      exact ⟨hrecorded, hfrozen, hstarted, hcontrol⟩
    | posted e =>
      obtain ⟨⟨stream', settled', hrecorded⟩, hfrozen, hstarted, hcontrol⟩ :=
        goesOn_handle (s := { s with queue := rest }) h hopen e
      rw [handleQueued]
      split
      · exact ⟨⟨_, _, hrecorded⟩, hfrozen, hstarted, hcontrol⟩
      · next hstate =>
        obtain ⟨hrecorded', hfrozen', hstarted', hcontrol'⟩ := ih hrecorded hfrozen
        refine ⟨hrecorded', hfrozen', hstarted'.trans hstarted, ?_⟩
        -- the item did not fail here, though one behind it may
        rcases hcontrol with ⟨hs, hc⟩ | ⟨hs, -⟩
        · rcases hcontrol' with ⟨hs', hc'⟩ | hcontrol'
          · exact Or.inl ⟨hs'.trans hs, hc'.trans hc⟩
          · exact Or.inr hcontrol'
        · exact absurd hs (by simpa using hstate)

/-- **A stop begins.** If there is no consumer at work afterwards, the queue has been worked off,
and otherwise the end has been queued. -/
theorem isConsistent_beginStop (h : s.IsConsistent) (hstate : s.state.isHalted = false) :
    s.beginStop.IsConsistent ∧ s.beginStop.log.frozen = false ∧
      (s.beginStop.consuming = false ∨ ∃ before, s.beginStop.queue = before ++ [.stop]) := by
  obtain ⟨stream, settled, hrecorded⟩ := h.recorded
  have hopen : s.log.frozen = false := by
    refine h.governed.not_frozen ?_ ?_ <;> intro hs <;> rw [hs] at hstate <;> cases hstate
  have hgoverned : ({ s with state := .stopping } : Session τ).Governed :=
    ⟨fun hfrozen => absurd (hopen.symm.trans hfrozen) Bool.false_ne_true, h.governed.idle,
      h.governed.started, by simp, by simp⟩
  rw [beginStop]
  dsimp only
  split
  · exact ⟨⟨h.recorded, hgoverned.ended, hgoverned.idle, hgoverned.started, hgoverned.failed,
      hgoverned.closed⟩, hopen, Or.inr ⟨s.queue, rfl⟩⟩
  · next hstarted =>
    have hidle : s.consuming = false := by
      cases hconsuming : s.consuming with
      | false => rfl
      | true => exact absurd (h.governed.started hconsuming) hstarted
    have hgoesOn := goesOn_handleQueued (s := { s with state := .stopping }) hrecorded hopen s.queue
    refine ⟨⟨hgoesOn.recorded, hgoesOn.governed hgoverned hopen⟩, hgoesOn.frozen, Or.inl ?_⟩
    rcases hgoesOn.control with ⟨-, hc⟩ | ⟨-, hc⟩
    · exact hc.trans hidle
    · exact hc

/-- The log and the output are closed. -/
def IsClosed (s : Session τ) : Prop :=
  s.log.frozen = true ∧ s.output.frozen = true

omit [Add τ] [LE τ] [DecidableLE τ] [LT τ] [DecidableLT τ] in
theorem recorded_freeze {stream : List Candidate} {settled : List Entry}
    (h : s.Recorded stream settled) : s.freeze.Recorded stream settled :=
  ⟨h.observed, h.books, h.published.logged, h.published.catalog, h.published.sources, rfl⟩

omit [LT τ] [DecidableLT τ] in
/-- **A stop ends** with the log and the output closed. -/
theorem isConsistent_endStop (h : s.IsConsistent) (hidle : s.consuming = false)
    (hstate : s.state ≠ .stopped) : s.endStop.IsConsistent ∧ s.endStop.IsClosed := by
  obtain ⟨stream, settled, hrecorded⟩ := h.recorded
  rw [endStop]
  split
  · next hfailed =>
    exact ⟨⟨⟨stream, settled, recorded_freeze hrecorded⟩, fun _ => Or.inr (beq_iff_eq.mp hfailed),
      fun _ => hidle, h.governed.started, h.governed.failed, fun _ => rfl⟩, rfl, rfl⟩
  · next hfailed =>
    have hfailed : s.state ≠ .failed := by simpa using hfailed
    obtain ⟨hcontrol, further, hrecorded'⟩ := afterYield_of_keeps hrecorded.published
      (h.governed.not_frozen hstate hfailed) hrecorded.observed hrecorded.books.flush_books
    dsimp only
    rw [if_neg (by simp [hcontrol.state, hfailed])]
    refine ⟨⟨⟨stream, _, recorded_freeze hrecorded'⟩, fun _ => Or.inl rfl,
      fun _ => hcontrol.consuming.trans hidle, fun hc => ?_, by simp [freeze], fun _ => rfl⟩,
      rfl, rfl⟩
    exact absurd ((hcontrol.consuming.trans hidle).symm.trans hc) Bool.false_ne_true

/-- **A stop** leaves the log and the output closed, unless another is under way. -/
theorem isConsistent_stop (h : s.IsConsistent) :
    s.stop.IsConsistent ∧ (s.state ≠ .stopping → s.stop.IsClosed) := by
  obtain ⟨stream, settled, hrecorded⟩ := h.recorded
  have hwhole (hhalted : s.state.isHalted = false) :
      s.beginStop.landAll.settle.endStop.IsConsistent ∧
        s.beginStop.landAll.settle.endStop.IsClosed := by
    obtain ⟨hbegin, hopen, hend⟩ := isConsistent_beginStop h hhalted
    obtain ⟨hsettle, hfrozen⟩ := isConsistent_consumeTimes (isConsistent_landAll hbegin)
      s.beginStop.landAll.queue.length
    refine isConsistent_endStop hsettle (consuming_settle_landAll hend) fun hstopped => ?_
    · have hclosed := hsettle.governed.closed hstopped
      exact absurd ((hfrozen.trans hopen).symm.trans hclosed) Bool.false_ne_true
  rw [stop]
  split
  · next hstate => exact ⟨h, fun _ => ⟨h.governed.closed hstate, by
      rw [hrecorded.published.frozen]
      exact h.governed.closed hstate⟩⟩
  · next hstate => exact ⟨h, fun hne => absurd hstate hne⟩
  · next hstate =>
    exact ⟨⟨⟨stream, settled, recorded_freeze hrecorded⟩, fun _ => Or.inr hstate,
      fun _ => h.governed.failed hstate, h.governed.started, h.governed.failed, fun _ => rfl⟩,
      fun _ => ⟨rfl, rfl⟩⟩
  · next hstate =>
    obtain ⟨hconsistent, hclosed⟩ := hwhole (by rw [hstate]; rfl)
    exact ⟨hconsistent, fun _ => hclosed⟩
  · next hstate =>
    obtain ⟨hconsistent, hclosed⟩ := hwhole (by rw [hstate]; rfl)
    exact ⟨hconsistent, fun _ => hclosed⟩

/-! ### Runs -/

omit [Add τ] [LE τ] [DecidableLE τ] [LT τ] [DecidableLT τ] in
theorem isConsistent_start (h : s.IsConsistent) : (s.start.toOption.getD s).IsConsistent := by
  rw [start]
  split
  · exact h
  split
  · exact h
  · next hstate =>
    have hstate : s.state = .idle := by simpa using hstate
    have hopen : s.log.frozen = false := h.governed.not_frozen (by simp [hstate]) (by simp [hstate])
    change ({ s with state := .recording, started := true, consuming := true } :
      Session τ).IsConsistent
    exact ⟨h.recorded, fun hfrozen => absurd (hopen.symm.trans hfrozen) Bool.false_ne_true,
      fun hfrozen => absurd (hopen.symm.trans hfrozen) Bool.false_ne_true, fun _ => rfl, by simp,
      by simp⟩

/-- **Every move keeps a session consistent.** -/
theorem isConsistent_perform (h : s.IsConsistent) (m : Move τ) : (s.perform m).IsConsistent := by
  have hg := h.governed
  cases m with
  | post e =>
    rw [perform_post]
    split
    · exact h
    · exact ⟨h.recorded, hg.ended, hg.idle, hg.started, hg.failed, hg.closed⟩
  | postElsewhere e =>
    rw [perform_postElsewhere]
    split
    · exact h
    · split <;> exact ⟨h.recorded, hg.ended, hg.idle, hg.started, hg.failed, hg.closed⟩
  | land =>
    rw [perform, land]
    split
    · exact h
    · exact ⟨h.recorded, hg.ended, hg.idle, hg.started, hg.failed, hg.closed⟩
  | start => exact isConsistent_start h
  | consume => exact (isConsistent_consume h).1
  | timeOut => exact isConsistent_timeOut h
  | setClock now => exact ⟨h.recorded, hg.ended, hg.idle, hg.started, hg.failed, hg.closed⟩
  | beginStop =>
    rw [perform]
    split
    · exact h
    · next hstate => exact (isConsistent_beginStop h (Bool.eq_false_iff.mpr hstate)).1
  | endStop =>
    rw [perform]
    split
    · next hcan =>
      obtain ⟨hstate, hidle⟩ := canEndStop_iff.mp hcan
      refine (isConsistent_endStop h hidle fun hstopped => ?_).1
      rcases hstate with hstate | hstate <;> rw [hstate] at hstopped <;> cases hstopped
    · exact h
  | stop => exact (isConsistent_stop h).1

/-- **Every run keeps a session consistent.** -/
theorem isConsistent_run (h : s.IsConsistent) (moves : List (Move τ)) :
    (s.run moves).IsConsistent := by
  induction moves generalizing s with
  | nil => exact h
  | cons m rest ih => exact ih (isConsistent_perform h m)

end

end Session

end Scribe
