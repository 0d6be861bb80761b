import Scribe.Proofs.Coalescer.Books
import Scribe.Proofs.Coalescer.Ticks

/-!
# Nothing is left behind

A coalescer is asked for something again and again: it is fed a candidate, told the time, or told to
settle everything. Whatever it is asked, and whatever its windows are, it is left in order
(`Scribe.Coalescer.serveAll_inOrder`): nothing waits that nobody would ever take up, and whoever
tells it the time at its deadline gets on.

The books (`Scribe.Coalescer.Books`) say what is held and what waits; they are kept over all
requests (`Scribe.Coalescer.Books.serveAll`), and a coalescer with its books is in order
(`Scribe.Coalescer.Books.inOrder`). That is a matter of single calls then: a tick leaves nothing
that is due (`Scribe.Coalescer.tick_done`), it settles the open action if that is due
(`Scribe.Coalescer.committed_expire_ne_nil`), and after a flush the books are closed.
-/

namespace Scribe

/-! ### Signals of one kind -/

/-- The kinds of the signals that an action carries. -/
def Action.signalKinds (a : Action) : List SignalKind :=
  a.signals.map (·.kind)

/-- **A signal is put down to an action only if it is the first of its kind**: an action that was
fed without two of a kind carries at most one of each. -/
theorem Entry.Sound.nodup_signalKinds {c : ActionCandidate} {n : ℕ}
    {replaced : List (ActionCandidate × ℕ)} {attached : List (SignalCandidate × ℕ)}
    {missed : Option SignalKind} (h : (Entry.action c n replaced attached missed).Sound)
    (hc : c.action.signalKinds.Nodup) :
    (Entry.action c n replaced attached missed).committed.signalKinds.Nodup := by
  obtain ⟨-, hsignals, hkinds, -⟩ := h
  have hcommitted : (Entry.action c n replaced attached missed).committed.signalKinds =
      c.action.signalKinds ++ attached.map (·.1.signal.kind) := by
    cases missed <;> simp [Entry.committed, Entry.receiving, Action.signalKinds]
  rw [hcommitted]
  refine List.nodup_append.mpr ⟨hc, hkinds, fun k hk k' hk' heq => ?_⟩
  obtain ⟨t, ht, rfl⟩ := List.mem_map.mp hk
  obtain ⟨s, hs, rfl⟩ := List.mem_map.mp hk'
  have hnone := (hsignals s hs).2.2.2
  rw [Action.signal?, List.find?_eq_none] at hnone
  exact hnone t ht (beq_iff_eq.mpr heq)

namespace Coalescer

variable {τ : Type} [Add τ] [LinearOrder τ] {m : Coalescer τ} {fed : List Candidate}
  {settled : List Entry} {o : OpenAction τ} {now : τ}

/-! ### Requests -/

/-- **What a coalescer is asked for.** -/
inductive Request (τ : Type) where
  | call (c : Call τ)
  /-- Everything is to be settled. -/
  | flush

/-- The candidate that a request feeds. -/
def Request.candidate? : Request τ → Option Candidate
  | call c => c.candidate?
  | flush => none

/-- A request is served. -/
def serve (m : Coalescer τ) : Request τ → Coalescer τ × Yield
  | .call c => m.perform c
  | .flush => m.flush

/-- **Requests are served**, one after the other. -/
def serveAll (m : Coalescer τ) : List (Request τ) → Coalescer τ × Yield
  | [] => (m, {})
  | r :: rest =>
    (((m.serve r).1.serveAll rest).1, (m.serve r).2 ++ ((m.serve r).1.serveAll rest).2)

/-- **A request keeps the books.** -/
theorem Books.serve (h : m.Books fed settled) (r : Request τ) :
    Keeps (fun m settled => m.Books (fed ++ r.candidate?.toList) settled) settled (m.serve r) := by
  cases r with
  | call c => exact h.perform c
  | flush =>
    simp only [Request.candidate?, Option.toList_none, List.append_nil]
    exact h.flush_books

/-- **Requests keep the books.** -/
theorem Books.serveAll (h : m.Books fed settled) (requests : List (Request τ)) :
    Keeps (fun m settled => m.Books (fed ++ requests.filterMap Request.candidate?) settled) settled
      (m.serveAll requests) := by
  induction requests generalizing m fed settled with
  | nil => exact .none (by simpa using h)
  | cons r rest ih =>
    refine (h.serve r).append fun further hfurther => ?_
    have hrest := ih hfurther
    cases hr : r.candidate? <;> simpa [hr] using hrest

/-! ### A tick -/

omit [Add τ] [LinearOrder τ] in
/-- An open action that is settled is committed. -/
theorem committed_settle_ne_nil (o : OpenAction τ) : o.settle.committed ≠ [] := by
  rw [OpenAction.settle]
  split <;> exact List.cons_ne_nil _ _

/-- An expiry settles the open action, whatever follows. -/
theorem committed_expire_ne_nil (ho : m.opened = some o) (hdue : o.deadline ≤ now) :
    (expire now m).2.committed ≠ [] := by
  have hmore (y : Yield) : (o.settle ++ y).committed ≠ [] := fun hnil =>
    committed_settle_ne_nil o (List.append_eq_nil_iff.mp hnil).1
  rw [expire]
  split
  · next hnone => simp [ho] at hnone
  · next hsome =>
    obtain rfl := Option.some.inj (ho.symm.trans hsome)
    rw [if_pos hdue]
    dsimp only
    split
    · exact hmore _
    · rw [Yield.append_assoc]
      exact hmore _

/-! ### After any requests -/

/-- **A coalescer is in order.** -/
structure InOrder (m : Coalescer τ) : Prop where
  /-- A fill and an open action are never held together. -/
  apart : m.fill = none ∨ m.opened = none
  /-- Something waits only behind an open action that awaits a signal, and so time has to be told.
  -/
  awaits : m.backlog ≠ [] →
    (∃ o, m.opened = some o ∧ o.awaiting.isSome = true) ∧ m.deadline?.isSome = true
  /-- After a tick the deadline is still to come. -/
  ahead : ∀ now deadline, (m.tick now).1.deadline? = some deadline → now < deadline
  /-- A tick at the deadline, or later, commits something. -/
  progress : ∀ now deadline, m.deadline? = some deadline → deadline ≤ now →
    (m.tick now).2.committed ≠ []
  /-- Nothing is pending once everything is settled. -/
  settles : m.flush.1.hasPending = false

/-- **With its books a coalescer is in order.** -/
theorem Books.inOrder (h : m.Books fed settled) : m.InOrder where
  apart := by
    obtain ⟨_, ⟨_, hheld, -, -⟩, -, -⟩ := h
    generalize m.fill = fill at hheld
    generalize m.opened = opened at hheld
    cases hheld with
    | nothing => exact .inl rfl
    | fill => exact .inr rfl
    | opened => exact .inl rfl
  awaits hbacklog := by
    obtain ⟨waiting, -, hwaiting, hquiet⟩ := h
    have hawaiting : m.isAwaiting = true :=
      hquiet fun hnil => hbacklog (by rw [hwaiting, hnil]; rfl)
    obtain ⟨o, ho, hsome⟩ := (Option.any_eq_true _ _).mp hawaiting
    exact ⟨⟨o, ho, hsome⟩, by rw [deadline?, ho]; rfl⟩
  ahead now deadline hdeadline := by
    obtain ⟨hdone, -⟩ := tick_done (h.tick now).1
    obtain ⟨o, ho, rfl⟩ := Option.map_eq_some_iff.mp hdeadline
    exact not_le.mp (hdone o ho)
  progress now deadline hdeadline hdue := by
    obtain ⟨o, ho, rfl⟩ := Option.map_eq_some_iff.mp hdeadline
    exact committed_expire_ne_nil (m := { m with lastNow := later m.lastNow now }) ho hdue
  settles := by
    obtain ⟨-, _, -, hclosed⟩ := h.flush
    simp [hasPending, hclosed.fill, hclosed.opened, hclosed.backlog]

/-- **A coalescer is in order after any requests**, with windows of any length, also of none. No
candidate is refused; and of the actions that were fed without two signals of a kind, those that are
committed, held or waiting carry at most one of each. -/
theorem serveAll_inOrder (signalWindow syncTimeout start : τ) (requests : List (Request τ)) :
    let r := (fresh signalWindow syncTimeout start).serveAll requests
    r.1.InOrder ∧ r.2.refused = false ∧
      ∃ settled held waiting,
        Account (requests.filterMap Request.candidate?) (settled ++ (held.toList ++ waiting)) ∧
        r.2.committed = settled.map Entry.committed ∧ IsHeld r.1.fill r.1.opened held ∧
        r.1.backlog = waiting.map Entry.candidate ∧
        ∀ e ∈ settled ++ (held.toList ++ waiting), ∀ c, e.candidate = .action c →
          c.action.signalKinds.Nodup → e.committed.signalKinds.Nodup := by
  intro r
  obtain ⟨hrefused, settled, hcommitted, hbooks⟩ :=
    (books_fresh signalWindow syncTimeout start).serveAll requests
  have horder := hbooks.inOrder
  obtain ⟨waiting, ⟨held, hheld, haccount, -⟩, hbacklog, -⟩ := hbooks
  refine ⟨horder, hrefused, settled, held, waiting, by simpa using haccount, hcommitted, hheld,
    hbacklog, fun e he c hc hnodup => ?_⟩
  have hsound := haccount.sound e (by simpa using he)
  cases e with
  | action d n replaced attached missed =>
    obtain rfl : d = c := Candidate.action.inj hc
    exact hsound.nodup_signalKinds hnodup
  | standalone s n => cases hc

end Coalescer

end Scribe
