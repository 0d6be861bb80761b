import Scribe.Session
import Scribe.Proofs.Coalescer.Books
import Scribe.Proofs.Coalescer.Scope
import Scribe.Proofs.PageNames.Binding

/-!
# Committing what was settled

What the coalescer settles goes into the log under aliases. `Scribe.Session.Agree` says that the
parts of a session agree with each other: the candidates that the observer yielded were fed to the
coalescer, the log holds the committed actions of their account, and the programs are those of the
log. The main statement is `Scribe.Session.afterYield_of_keeps`: when the coalescer keeps its books,
the log refuses nothing, and the parts agree again.
-/

namespace Scribe

/-! ### What is committed has not been bound -/

theorem Observable.sequence {c : ActionCandidate} (h : Observable (.action c)) :
    c.action.sequence = -1 := by
  cases h with
  | opened page url => rfl
  | closed page => rfl
  | gesture hgesture => exact hgesture.sequence

theorem Observable.signals {c : ActionCandidate} (h : Observable (.action c)) :
    c.action.signals = [] := by
  cases h with
  | opened page url => rfl
  | closed page => rfl
  | gesture hgesture => exact hgesture.signals

theorem Observable.isUnbound {s : SignalCandidate} (h : Observable (.signal s)) :
    s.signal.IsUnbound := by
  cases h <;> exact ⟨by simp, rfl⟩

/-- The action that stands for a signal has not been committed, and has no other signal. -/
theorem Observable.standalone {s : SignalCandidate} (h : Observable (.signal s)) :
    s.standalone.sequence = -1 ∧ ∀ t ∈ s.standalone.signals, t = s.signal := by
  cases h <;> exact ⟨rfl, by simp⟩

theorem Entry.sequence_committed {e : Entry} (h : e.IsObservable) :
    e.committed.sequence = -1 := by
  cases e with
  | action c n replaced attached missed =>
    have hc := Observable.sequence h.candidate
    cases missed <;> exact hc
  | standalone s n => exact (Observable.standalone h.candidate).1

/-- The signals of a committed action were observed. -/
theorem Entry.exists_observable_signal {e : Entry} (h : e.IsObservable) {s : Signal}
    (hs : s ∈ e.committed.signals) :
    ∃ t : SignalCandidate, Observable (.signal t) ∧ t.signal = s := by
  cases e with
  | action c n replaced attached missed =>
    have hsignals : s ∈ c.action.signals ++ attached.map (·.1.signal) := by
      cases missed <;> exact hs
    rw [Observable.signals h.candidate, List.nil_append] at hsignals
    obtain ⟨t, ht, rfl⟩ := List.mem_map.mp hsignals
    exact ⟨t.1, h.attached ht, rfl⟩
  | standalone t n => exact ⟨t, h.candidate, ((Observable.standalone h.candidate).2 s hs).symm⟩

theorem Entry.isUnbound_committed {e : Entry} (h : e.IsObservable) :
    ∀ s ∈ e.committed.signals, s.IsUnbound := by
  intro s hs
  obtain ⟨t, ht, rfl⟩ := Entry.exists_observable_signal h hs
  exact ht.isUnbound

namespace Session

variable {τ : Type}

/-- **Actions that have not been bound go into a log** that is not frozen, all of them. -/
theorem commit_of_logged {names : PageNames} {log : ActionLog} {actions settled : List Action}
    (h : names.Logged actions log.actions) (hopen : log.frozen = false)
    (hsignals : ∀ a ∈ settled, ∀ s ∈ a.signals, s.IsUnbound)
    (hsequence : ∀ a ∈ settled, a.sequence = -1) :
    ∃ names' log', commit names log settled = (names', log', none) ∧ log'.frozen = false ∧
      names'.Logged (actions ++ settled) log'.actions := by
  induction settled generalizing names log actions with
  | nil => exact ⟨names, log, rfl, hopen, by simpa using h⟩
  | cons a rest ih =>
    have hbound : (names.bind a).1.isCommitted = false := by
      have hrest : (names.bind a).1.sequence = a.sequence := rfl
      simp [Action.isCommitted, hrest, hsequence a List.mem_cons_self]
    have happend : log.append (names.bind a).1 =
        .ok ({ (names.bind a).1 with sequence := log.nextSequence },
          { log with actions :=
              log.actions ++ [{ (names.bind a).1 with sequence := log.nextSequence }] }) := by
      simp [ActionLog.append, hopen, hbound]
    have hbind := h.bind (hsignals a List.mem_cons_self) log.nextSequence
    -- the induction goes on from the log with the action behind it
    let longer : ActionLog := { log with actions :=
      log.actions ++ [{ (names.bind a).1 with sequence := log.nextSequence }] }
    have hlonger : (names.bind a).2.Logged (actions ++ [a]) longer.actions := hbind
    obtain ⟨names', log', hcommit, hopen', hlogged⟩ := ih hlonger hopen
      (fun b hb => hsignals b (List.mem_cons_of_mem _ hb))
      (fun b hb => hsequence b (List.mem_cons_of_mem _ hb))
    refine ⟨names', log', ?_, hopen', by simpa using hlogged⟩
    simp only [commit, happend]
    exact hcommit

end Session

/-- An output that is not frozen holds the programs of its last update. -/
theorem Output.update_of_not_frozen {o : Output} (h : o.frozen = false) (actions : List Action)
    (aliases : AliasTable) :
    (o.update actions aliases).1.sources = renderAll o.catalog actions aliases ∧
      (o.update actions aliases).1.catalog = o.catalog ∧
      (o.update actions aliases).1.frozen = false := by
  rw [update, if_neg (by simp [h])]
  dsimp only
  split <;> exact ⟨rfl, rfl, h⟩

namespace Session

/-! ### Agreement -/

/-- **The log and the output hold the actions**: the log holds them under their aliases, and the
output holds the programs of the log. -/
structure Published (names : PageNames) (log : ActionLog) (output : Output)
    (actions : List Action) : Prop where
  logged : names.Logged actions log.actions
  catalog : output.catalog = .standard
  sources : output.sources = renderAll .standard log.actions names.table
  frozen : output.frozen = log.frozen

/-- **The parts of a session agree**, when the observer has yielded the candidates `stream` and the
entries `settled` have been committed. -/
structure Agree (observer : Observer) (coalescer : Coalescer τ) (names : PageNames)
    (log : ActionLog) (output : Output) (stream : List Candidate) (settled : List Entry) :
    Prop where
  observed : Observed observer stream
  books : coalescer.Books stream settled
  published : Published names log output (settled.map Entry.committed)

/-- **Nothing but what is recorded has changed.** -/
structure SameControl (s t : Session τ) : Prop where
  state : t.state = s.state
  started : t.started = s.started
  consuming : t.consuming = s.consuming
  frozen : t.log.frozen = s.log.frozen

/-- **Settled actions are published**, and nothing fails. -/
theorem publish_of_published {s : Session τ} {actions settled : List Action}
    (h : Published s.names s.log s.output actions) (hopen : s.log.frozen = false)
    (hsignals : ∀ a ∈ settled, ∀ t ∈ a.signals, t.IsUnbound)
    (hsequence : ∀ a ∈ settled, a.sequence = -1) :
    s.SameControl (s.publish settled) ∧ (s.publish settled).observer = s.observer ∧
      (s.publish settled).coalescer = s.coalescer ∧
      Published (s.publish settled).names (s.publish settled).log (s.publish settled).output
        (actions ++ settled) := by
  rw [publish]
  split
  · next hempty =>
    obtain rfl := List.isEmpty_iff.mp hempty
    exact ⟨⟨rfl, rfl, rfl, rfl⟩, rfl, rfl, by simpa using h⟩
  · obtain ⟨names, log, hcommit, hlog, hlogged⟩ :=
      commit_of_logged h.logged hopen hsignals hsequence
    obtain ⟨hsources, hcatalog, hfrozen⟩ :=
      Output.update_of_not_frozen (h.frozen.trans hopen) log.actions names.table
    simp only [hcommit]
    refine ⟨⟨rfl, rfl, rfl, hlog.trans hopen.symm⟩, rfl, rfl, hlogged,
      hcatalog.trans h.catalog, ?_, hfrozen.trans hlog.symm⟩
    change (s.output.update log.actions names.table).1.sources = _
    rw [hsources, h.catalog]
    rfl

/-- **What is recorded agrees**: the parts of the session do, for some candidates and entries. -/
def Recorded (s : Session τ) (stream : List Candidate) (settled : List Entry) : Prop :=
  Agree s.observer s.coalescer s.names s.log s.output stream settled

/-- What the coalescer settles has been observed, if it keeps its books. -/
theorem isObservable_of_keeps {o : Observer} {r : Coalescer τ × Yield} {stream : List Candidate}
    {settled : List Entry} (hobserved : Observed o stream)
    (hkeeps : Coalescer.Keeps (fun m settled => m.Books stream settled) settled r) {a : Action}
    (ha : a ∈ r.2.committed) : ∃ e : Entry, e.IsObservable ∧ e.committed = a := by
  obtain ⟨-, further, hcommitted, waiting, ⟨held, -, hacc, -⟩, -⟩ := hkeeps
  rw [hcommitted] at ha
  obtain ⟨e, he, rfl⟩ := List.mem_map.mp ha
  refine ⟨e, hacc.isObservable hobserved.observable (List.mem_append_left _ ?_), rfl⟩
  exact List.mem_append_right _ he

/-- What the coalescer settles has no number yet. -/
theorem sequence_of_keeps {o : Observer} {r : Coalescer τ × Yield} {stream : List Candidate}
    {settled : List Entry} (hobserved : Observed o stream)
    (hkeeps : Coalescer.Keeps (fun m settled => m.Books stream settled) settled r) :
    ∀ a ∈ r.2.committed, a.sequence = -1 := by
  intro a ha
  obtain ⟨e, he, rfl⟩ := isObservable_of_keeps hobserved hkeeps ha
  exact Entry.sequence_committed he

/-- **What the coalescer settles is committed and published**, if it keeps its books, and nothing
fails. -/
theorem afterYield_of_keeps {s : Session τ} {r : Coalescer τ × Yield} {stream : List Candidate}
    {settled : List Entry} (h : Published s.names s.log s.output (settled.map Entry.committed))
    (hopen : s.log.frozen = false) (hobserved : Observed s.observer stream)
    (hkeeps : Coalescer.Keeps (fun m settled => m.Books stream settled) settled r) :
    s.SameControl (s.afterYield r.1 r.2) ∧
      ∃ further, (s.afterYield r.1 r.2).Recorded stream (settled ++ further) := by
  -- what is settled now has been observed, so it can be bound and appended
  have hsequence := sequence_of_keeps hobserved hkeeps
  have hsignals : ∀ a ∈ r.2.committed, ∀ t ∈ a.signals, t.IsUnbound := by
    intro a ha
    obtain ⟨e, he, rfl⟩ := isObservable_of_keeps hobserved hkeeps ha
    exact Entry.isUnbound_committed he
  obtain ⟨hrefused, further, hcommitted, hbooks⟩ := hkeeps
  simp only [afterYield, hrefused, Bool.false_eq_true, if_false]
  obtain ⟨hcontrol, hobserver, hcoalescer, hpublished⟩ := publish_of_published
    (s := { s with
      coalescer := r.1, warnings := s.warnings ++ r.2.missed.map MissedSignal.message })
    h hopen hsignals hsequence
  refine ⟨⟨hcontrol.state, hcontrol.started, hcontrol.consuming, hcontrol.frozen⟩, further, ?_, ?_,
    ?_⟩
  · rw [hobserver]
    exact hobserved
  · rw [hcoalescer]
    exact hbooks
  · rw [List.map_append, ← hcommitted]
    exact hpublished

end Session

end Scribe
