import Scribe.Proofs.Coalescer.Ledger

/-!
# The books of a coalescer

The account of `Scribe.Account`, kept over the calls of a coalescer. `Scribe.Coalescer.Books` is the
invariant between two calls: the entries of what was committed, of what is held and of what waits in
the backlog account for the candidates that were fed, and the backlog is empty unless an action
awaits a signal. The books are a ledger of which only the account is kept: a call follows deeds of
the ledger, and every deed keeps the account.

Each operation gets one lemma, which says that it commits the actions of some further entries and
keeps the books (`Scribe.Coalescer.Keeps`). The main statement is
`Scribe.Coalescer.runToEnd_accounted`: whatever calls are made, once all is settled the committed
actions are those of an account of the candidates that were fed.
-/

namespace Scribe

namespace Coalescer

variable {τ : Type}

/-! ### What the books say -/

/-- The entry of the fill or the open action that is held. A fill has received no signals. An open
action has those of its entry, and not the one that it awaits. -/
inductive IsHeld : Option ActionCandidate → Option (OpenAction τ) → Option Entry → Prop
  | nothing : IsHeld none none none
  | fill {c : ActionCandidate} {n : ℕ} {replaced : List (ActionCandidate × ℕ)}
      (mergeable : c.isMergeable) :
      IsHeld (some c) none (some (.action c n replaced [] none))
  | opened {c : ActionCandidate} {n : ℕ} {attached : List (SignalCandidate × ℕ)} {deadline : τ}
      (bears : c.action.kind.bearsSignals)
      (missing : ∀ s ∈ attached, c.awaiting ≠ some s.1.signal.kind) :
      IsHeld none (some ⟨Entry.receiving c attached, deadline, c.awaiting⟩)
        (some (.action c n [] attached none))

/-- **What is settled, what is held and what waits** account for what was fed. -/
def Holding (m : Coalescer τ) (fed : List Candidate) (settled waiting : List Entry) : Prop :=
  ∃ held, IsHeld m.fill m.opened held ∧ Account fed (settled ++ (held.toList ++ waiting)) ∧
    ∀ e ∈ waiting, e.IsFresh

/-- **The books** between two calls: what waits is the backlog, and nothing waits unless an action
awaits a signal. -/
def Books (m : Coalescer τ) (fed : List Candidate) (settled : List Entry) : Prop :=
  ∃ waiting, m.Holding fed settled waiting ∧ m.backlog = waiting.map Entry.candidate ∧
    (waiting ≠ [] → m.isAwaiting = true)

/-- **The books are closed**: nothing is held and nothing waits. -/
structure Closed (m : Coalescer τ) (fed : List Candidate) (settled : List Entry) : Prop where
  account : Account fed settled
  fill : m.fill = none
  opened : m.opened = none
  backlog : m.backlog = []

/-- **A result keeps** what `P` says of a coalescer and the settled entries: no candidate was
refused, and the committed actions are those of further entries. -/
def Keeps (P : Coalescer τ → List Entry → Prop) (settled : List Entry) (r : Coalescer τ × Yield) :
    Prop :=
  r.2.refused = false ∧ ∃ further : List Entry,
    r.2.committed = further.map Entry.committed ∧ P r.1 (settled ++ further)

section

variable {P Q : Coalescer τ → List Entry → Prop} {m n : Coalescer τ}
  {fed : List Candidate} {settled waiting : List Entry}

theorem Keeps.none (h : P m settled) : Keeps P settled (m, {}) :=
  ⟨rfl, [], rfl, by simpa using h⟩

/-- One result after another. -/
theorem Keeps.append {r t : Coalescer τ × Yield} (h : Keeps P settled r)
    (hnext : ∀ further, P r.1 further → Keeps Q further t) :
    Keeps Q settled (t.1, r.2 ++ t.2) := by
  obtain ⟨hr, first, hfirst, hP⟩ := h
  obtain ⟨ht, second, hsecond, hQ⟩ := hnext _ hP
  refine ⟨?_, first ++ second, ?_, by simpa using hQ⟩
  · change (r.2.refused || t.2.refused) = false
    rw [hr, ht]
    rfl
  · change r.2.committed ++ t.2.committed = _
    rw [hfirst, hsecond, List.map_append]

theorem Keeps.mono {r : Coalescer τ × Yield} (h : Keeps P settled r)
    (hPQ : ∀ further, P r.1 further → Q n further) : Keeps Q settled (n, r.2) := by
  obtain ⟨hr, further, hfurther, hP⟩ := h
  exact ⟨hr, further, hfurther, hPQ _ hP⟩

theorem Closed.books (h : m.Closed fed settled) : m.Books fed settled := by
  refine ⟨[], ⟨Option.none, ?_, by simpa using h.account, by simp⟩, by simp [h.backlog], by simp⟩
  rw [h.fill, h.opened]
  exact .nothing

/-! ### The ledger behind the books -/

theorem IsHeld.exists_held {fill : Option ActionCandidate} {opened : Option (OpenAction τ)}
    {entry : Option Entry} (h : IsHeld fill opened entry) :
    ∃ held : Held τ, fill = held.fill? ∧ opened = held.opened? ∧ entry.toList = held.entries := by
  cases h with
  | nothing => exact ⟨.nothing, rfl, rfl, rfl⟩
  | fill mergeable => exact ⟨.fill _ _ _ mergeable, rfl, rfl, rfl⟩
  | opened bears missing => exact ⟨.opened _ _ _ _ bears missing, rfl, rfl, rfl⟩

theorem exists_isHeld (held : Held τ) :
    ∃ entry, IsHeld held.fill? held.opened? entry ∧ entry.toList = held.entries := by
  cases held with
  | nothing => exact ⟨_, .nothing, rfl⟩
  | fill c n replaced mergeable => exact ⟨_, .fill mergeable, rfl⟩
  | opened c n attached deadline bears missing => exact ⟨_, .opened bears missing, rfl⟩

/-- The books are those of a ledger. -/
theorem Books.exists_ledger (h : m.Books fed settled) :
    ∃ l : Ledger τ, m.Shows l ∧ l.IsQuiet ∧ l.fed = fed ∧ l.settled = settled ∧
      Account l.fed l.entries := by
  obtain ⟨waiting, ⟨entry, hheld, hacc, hfresh⟩, hbacklog, hquiet⟩ := h
  obtain ⟨held, hfill, hopened, hentries⟩ := hheld.exists_held
  have hshows : m.Shows ⟨fed, settled, held, waiting⟩ := ⟨hfill, hopened, hbacklog, hfresh⟩
  refine ⟨_, hshows, fun hne => ?_, rfl, rfl, ?_⟩
  · rw [← hshows.isAwaiting]
    exact hquiet hne
  · rwa [hentries] at hacc

theorem Shows.books {l : Ledger τ} (h : m.Shows l) (hquiet : l.IsQuiet)
    (hacc : Account l.fed l.entries) : m.Books l.fed l.settled := by
  obtain ⟨entry, hheld, hentry⟩ := exists_isHeld l.held
  refine ⟨l.waiting, ⟨entry, ?_, by rwa [hentry], h.fresh⟩, h.backlog, fun hne => ?_⟩
  · rwa [h.fill, h.opened]
  · rw [h.isAwaiting]
    exact hquiet hne

section

variable [Add τ] [LE τ] [DecidableLE τ]

/-- **What follows deeds keeps the books.** -/
theorem Books.keeps {arrived : List Candidate} {r : Coalescer τ × Yield} {now : τ}
    (h : m.Books fed settled) (hr : ∀ l, m.Shows l → l.IsQuiet → l.fed = fed →
      ∃ l', Reaches m.window now l arrived r l' ∧ l'.IsQuiet) :
    Keeps (fun m settled => m.Books (fed ++ arrived) settled) settled r := by
  obtain ⟨l, hshows, hquiet, rfl, rfl, hacc⟩ := h.exists_ledger
  obtain ⟨l', hreaches, hquiet'⟩ := hr l hshows hquiet rfl
  have hacc' := hreaches.deeds.account hacc
  obtain ⟨further, hsettled, hyields⟩ := hreaches.yields
  refine ⟨hreaches.refused, further, by rw [hyields]; rfl, ?_⟩
  rw [← hreaches.fed, ← hsettled]
  exact hreaches.shows.books hquiet' hacc'

/-! ### The calls -/

/-- **Time goes by.** -/
theorem Books.tick [LT τ] [DecidableLT τ] (h : m.Books fed settled) (now : τ) :
    Keeps (fun m settled => m.Books fed settled) settled (m.tick now) := by
  have hkeeps := h.keeps fun l hshows hquiet _ => tick_reaches hshows rfl hquiet now
  simpa using hkeeps

/-- **The next candidate.** -/
theorem Books.feed [LT τ] [DecidableLT τ] (h : m.Books fed settled) {e : Entry}
    (he : e.IsFresh) (hn : e.number = fed.length) (now : τ) :
    Keeps (fun m settled => m.Books (fed ++ [e.candidate]) settled) settled
      (m.feed e.candidate now) :=
  h.keeps fun _ hshows hquiet hfed => feed_reaches hshows rfl hquiet he (hfed ▸ hn) now

/-- **Everything is settled.** -/
theorem Books.flush (h : m.Books fed settled) :
    Keeps (fun m settled => m.Closed fed settled) settled m.flush := by
  obtain ⟨l, hshows, -, rfl, rfl, hacc⟩ := h.exists_ledger
  have hyields := flush_yields hshows
  have hrefused : m.flush.2.refused = false := by rw [hyields]; rfl
  obtain ⟨hfill, hopened, hbacklog⟩ := flushList_pending hrefused
  exact ⟨hrefused, _, by rw [hyields]; rfl, Ledger.account_end hacc hshows.fresh, hfill, hopened,
    hbacklog⟩

/-- Once everything is settled, the books go on. -/
theorem Books.flush_books (h : m.Books fed settled) :
    Keeps (fun m settled => m.Books fed settled) settled m.flush :=
  h.flush.mono fun _ hclosed => hclosed.books

end

section

variable [LE τ] [DecidableLE τ]

/-! ### Runs -/

/-- **A call** of a coalescer: a candidate arrives, or only time goes by. -/
inductive Call (τ : Type) where
  | action (c : ActionCandidate) (now : τ)
  | signal (c : SignalCandidate) (now : τ)
  | tick (now : τ)

/-- The candidate that a call feeds. -/
def Call.candidate? : Call τ → Option Candidate
  | action c _ => some (.action c)
  | signal c _ => some (.signal c)
  | tick _ => none

/-- What a call does. -/
def perform [Add τ] [LT τ] [DecidableLT τ] (m : Coalescer τ) : Call τ → Coalescer τ × Yield
  | .action c now => m.feed (.action c) now
  | .signal c now => m.feed (.signal c) now
  | .tick now => m.tick now

/-- **A run**: one call after another, and all that they yield. -/
def run [Add τ] [LT τ] [DecidableLT τ] (m : Coalescer τ) : List (Call τ) → Coalescer τ × Yield
  | [] => (m, {})
  | c :: rest => (((m.perform c).1.run rest).1, (m.perform c).2 ++ ((m.perform c).1.run rest).2)

/-- All that a run yields when everything is settled in the end. -/
def runToEnd [Add τ] [LT τ] [DecidableLT τ] (m : Coalescer τ) (calls : List (Call τ)) : Yield :=
  (m.run calls).2 ++ (m.run calls).1.flush.2

omit [LE τ] [DecidableLE τ] in
/-- **A coalescer that nothing was fed to.** -/
def fresh (signalWindow syncTimeout lastNow : τ) : Coalescer τ :=
  { signalWindow := signalWindow, syncTimeout := syncTimeout, lastNow := lastNow }

omit [LE τ] [DecidableLE τ] in
theorem books_fresh (signalWindow syncTimeout lastNow : τ) :
    (fresh signalWindow syncTimeout lastNow).Books [] [] :=
  Closed.books ⟨.nil, rfl, rfl, rfl⟩

variable [Add τ] [LT τ] [DecidableLT τ]

theorem Books.perform (h : m.Books fed settled) (c : Call τ) :
    Keeps (fun m settled => m.Books (fed ++ c.candidate?.toList) settled) settled
      (m.perform c) := by
  cases c with
  | action c now => exact h.feed (.action c fed.length) rfl now
  | signal c now => exact h.feed (.standalone c fed.length) rfl now
  | tick now =>
    simp only [Call.candidate?, Option.toList_none, List.append_nil]
    exact h.tick now

theorem Books.run (h : m.Books fed settled) (calls : List (Call τ)) :
    Keeps (fun m settled => m.Books (fed ++ calls.filterMap Call.candidate?) settled) settled
      (m.run calls) := by
  induction calls generalizing m fed settled with
  | nil => exact .none (by simpa using h)
  | cons c rest ih =>
    refine (h.perform c).append fun further hfurther => ?_
    have hrest := ih hfurther
    cases hc : c.candidate? <;> simpa [hc] using hrest

/-- **What is committed in the end accounts for all that was fed.** No candidate is refused. Each is
committed once, in the order of arrival, or was a fill and gave way to the next one of its key, or
is a signal and was put down to an earlier action; and nothing else is committed. -/
theorem runToEnd_accounted (signalWindow syncTimeout start : τ) (calls : List (Call τ)) :
    ((fresh signalWindow syncTimeout start).runToEnd calls).refused = false ∧
      ∃ entries, Account (calls.filterMap Call.candidate?) entries ∧
        ((fresh signalWindow syncTimeout start).runToEnd calls).committed =
          entries.map Entry.committed := by
  have hrun := (books_fresh signalWindow syncTimeout start).run calls
  have hflush := hrun.append fun further hfurther => hfurther.flush
  obtain ⟨hrefused, entries, hcommitted, hclosed⟩ := hflush
  exact ⟨hrefused, entries, hclosed.account, hcommitted⟩

end

end

end Coalescer

end Scribe
