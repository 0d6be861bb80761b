import Scribe.Proofs.Coalescer.Account
import Mathlib.Logic.Relation

/-!
# The ledger of a coalescer

What a coalescer does between two calls, told of the entries of an account. A **ledger** keeps what
was fed, what is settled, what is held and what waits, and only six things ever happen to it
(`Scribe.Ledger.Deed`):

| deed | what it does |
|---|---|
| `arrive` | a candidate arrives, behind all that waits |
| `expire` | the open action is settled at its deadline |
| `merge` | the fill that is held gives way to the next one of its key |
| `take` | what is held is settled, and the first that waits is taken up |
| `receive` | the open action receives a signal, also across what waits |
| `fulfil` | it receives the one that it awaits, and is settled |

A coalescer *shows* a ledger (`Scribe.Coalescer.Shows`): its fill, its open action and its backlog
are those of the ledger. Whatever is called, it follows deeds of the ledger it shows, and yields the
entries that they settle (`Scribe.Coalescer.Reaches`):

* `Scribe.Coalescer.tick_reaches` – time goes by;
* `Scribe.Coalescer.feed_reaches` – a candidate arrives and is dealt with;
* `Scribe.Coalescer.flush_yields` – what everything comes to in the end.

So what is to be shown of all runs of a coalescer is shown of the six deeds.
-/

namespace Scribe

/-! ### What entries yield -/

namespace Entry

/-- The signal that an entry missed. -/
def missed : Entry → Option SignalKind
  | action _ _ _ _ missed => missed
  | standalone .. => none

/-- The warning that is given for an entry. -/
def warning : Entry → Option MissedSignal
  | action c _ _ _ missed => missed.map fun k => ⟨k, c.action.page, c.action.kind⟩
  | standalone .. => none

/-- An entry cut short: a signal-bearing action misses what it awaits. -/
def cut : Entry → Entry
  | action c n replaced attached missed =>
    action c n replaced attached (if c.action.kind.bearsSignals then c.awaiting else missed)
  | standalone c n => standalone c n

@[simp] theorem receiving_nil (c : ActionCandidate) : receiving c [] = c.action := by
  simp [receiving]

@[simp] theorem candidate_cut (e : Entry) : e.cut.candidate = e.candidate := by
  cases e <;> rfl

end Entry

/-- **What entries yield** when they are settled: their actions and their warnings. -/
def Yield.ofEntries (entries : List Entry) : Yield where
  committed := entries.map Entry.committed
  missed := entries.filterMap Entry.warning

namespace Yield

theorem ofEntries_append (first second : List Entry) :
    ofEntries (first ++ second) = ofEntries first ++ ofEntries second := by
  change _ = append _ _
  simp [ofEntries, append]

@[simp] theorem append_ofEntries_nil (y : Yield) : y ++ ofEntries [] = y := by
  change append y _ = y
  simp [ofEntries, append]

@[simp] theorem ofEntries_nil_append (y : Yield) : ofEntries [] ++ y = y := by
  change append _ y = y
  simp [ofEntries, append]

theorem refused_append (a b : Yield) : (a ++ b).refused = (a.refused || b.refused) :=
  rfl

theorem append_assoc (a b c : Yield) : a ++ b ++ c = a ++ (b ++ c) := by
  change append (append a b) c = append a (append b c)
  simp [append, Bool.or_assoc]

end Yield

/-! ### What is held -/

/-- **What is held**, with its entry so far. -/
inductive Held (τ : Type) where
  | nothing
  /-- A fill, and those that it has replaced. -/
  | fill (c : ActionCandidate) (number : ℕ) (replaced : List (ActionCandidate × ℕ))
      (mergeable : c.isMergeable)
  /-- An action that is open until a deadline, and the signals that it has received. The one that it
  awaits is not among them. -/
  | opened (c : ActionCandidate) (number : ℕ) (attached : List (SignalCandidate × ℕ)) (deadline : τ)
      (bears : c.action.kind.bearsSignals)
      (missing : ∀ s ∈ attached, c.awaiting ≠ some s.1.signal.kind)

namespace Held

variable {τ : Type}

/-- The fill that is held. -/
def fill? : Held τ → Option ActionCandidate
  | fill c .. => some c
  | _ => none

/-- The open action that is held. -/
def opened? : Held τ → Option (OpenAction τ)
  | opened c _ attached deadline .. => some ⟨Entry.receiving c attached, deadline, c.awaiting⟩
  | _ => none

/-- The signal that is awaited. -/
def awaiting : Held τ → Option SignalKind
  | opened c .. => c.awaiting
  | _ => none

/-- The entry so far. -/
def entries : Held τ → List Entry
  | nothing => []
  | fill c n replaced _ => [.action c n replaced [] none]
  | opened c n attached .. => [.action c n [] attached none]

/-- The entry that is settled: what an open action still awaits it has missed. -/
def settled : Held τ → List Entry
  | nothing => []
  | fill c n replaced _ => [.action c n replaced [] none]
  | opened c n attached .. => [.action c n [] attached c.awaiting]

/-- Whether what is held takes a candidate in: a fill of the same key, or a signal for the open
action. -/
def takesIn [LE τ] [DecidableLE τ] (held : Held τ) (now : τ) : Candidate → Bool
  | .action c => c.isMergeable && held.fill?.any (·.key == c.key)
  | .signal s => held.opened?.any (Coalescer.receives · s now)
  | .foreign => false

theorem of_fill? {held : Held τ} {c : ActionCandidate} (h : held.fill? = some c) :
    ∃ (n : ℕ) (replaced : List (ActionCandidate × ℕ)) (mergeable : c.isMergeable),
      held = fill c n replaced mergeable := by
  cases held with
  | nothing => cases h
  | fill d n replaced mergeable =>
    cases h
    exact ⟨n, replaced, mergeable, rfl⟩
  | opened => cases h

theorem of_opened? {held : Held τ} {o : OpenAction τ} (h : held.opened? = some o) :
    ∃ (c : ActionCandidate) (n : ℕ) (attached : List (SignalCandidate × ℕ))
      (bears : c.action.kind.bearsSignals)
      (missing : ∀ s ∈ attached, c.awaiting ≠ some s.1.signal.kind),
      held = opened c n attached o.deadline bears missing ∧
        o = ⟨Entry.receiving c attached, o.deadline, c.awaiting⟩ := by
  cases held with
  | nothing => cases h
  | fill => cases h
  | opened c n attached deadline bears missing =>
    cases h
    exact ⟨c, n, attached, bears, missing, rfl, rfl⟩

/-- Only an open action awaits a signal. -/
theorem of_awaiting {held : Held τ} (h : held.awaiting.isSome) :
    ∃ (c : ActionCandidate) (n : ℕ) (attached : List (SignalCandidate × ℕ)) (deadline : τ)
      (bears : c.action.kind.bearsSignals)
      (missing : ∀ s ∈ attached, c.awaiting ≠ some s.1.signal.kind),
      held = opened c n attached deadline bears missing ∧ c.awaiting.isSome := by
  cases held with
  | nothing => cases h
  | fill => cases h
  | opened c n attached deadline bears missing =>
    exact ⟨c, n, attached, deadline, bears, missing, rfl, h⟩

/-- **What is held is settled**: the account stays one. -/
theorem account_settled {held : Held τ} {fed : List Candidate} {before behind : List Entry}
    (h : Account fed (before ++ (held.entries ++ behind))) :
    Account fed (before ++ (held.settled ++ behind)) := by
  cases held with
  | nothing => exact h
  | fill => exact h
  | opened c n attached deadline bears missing =>
    -- the entry is the same but for the signal that it has missed
    refine h.replace ?_ rfl rfl (.refl _)
    obtain ⟨-, hsignals, hkinds, -⟩ := h.sound (.action c n [] attached none) (by simp [entries])
    refine .action (by simp) hsignals hkinds fun k hk => ⟨hk, fun hmem => ?_⟩
    obtain ⟨s, hs, rfl⟩ := List.mem_map.mp hmem
    exact missing s hs hk

end Held

/-- A signal-bearing action is no fill. -/
theorem ActionCandidate.not_isMergeable {c : ActionCandidate} (h : c.action.kind.bearsSignals) :
    ¬c.isMergeable := by
  intro hc
  rw [eq_of_beq hc] at h
  cases h

/-- **A candidate is taken up while nothing is held**: the entries that are settled at once, and
what is held then. A fill is held, a signal-bearing action is opened for a while, and any other
action and any signal is settled. -/
inductive Taken {τ : Type} [Add τ] (window : ActionCandidate → τ) (now : τ) :
    Entry → List Entry → Held τ → Prop
  | fill {c : ActionCandidate} {n : ℕ} (mergeable : c.isMergeable) :
      Taken window now (.action c n [] [] none) [] (.fill c n [] mergeable)
  | opened {c : ActionCandidate} {n : ℕ} (bears : c.action.kind.bearsSignals) :
      Taken window now (.action c n [] [] none) []
        (.opened c n [] (now + window c) bears (by simp))
  | action {c : ActionCandidate} {n : ℕ} (single : c.isMergeable = false)
      (deaf : c.action.kind.bearsSignals = false) :
      Taken window now (.action c n [] [] none) [.action c n [] [] none] .nothing
  | signal {s : SignalCandidate} {n : ℕ} :
      Taken window now (.standalone s n) [.standalone s n] .nothing

namespace Taken

variable {τ : Type} [Add τ] {window : ActionCandidate → τ} {now : τ} {e : Entry}
  {es : List Entry} {held : Held τ}

/-- What is taken up is either settled or held. -/
theorem entries (h : Taken window now e es held) : es ++ held.entries = [e] := by
  rcases h with _ | _ | _ | _ <;> rfl

/-- What is taken up and settled right after is cut short. -/
theorem settled (h : Taken window now e es held) : es ++ held.settled = [e.cut] := by
  rcases h with @⟨c, n, hc⟩ | @⟨c, n, hc⟩ | ⟨-, hc⟩ | _
  · have hkind : c.action.kind.bearsSignals = false := by
      rw [eq_of_beq hc]
      rfl
    simp [Held.settled, Entry.cut, hkind]
  · simp [Held.settled, Entry.cut, hc]
  · simp [Held.settled, Entry.cut, hc]
  · rfl

/-- What is taken up and settled right after is cut short like what waits behind it. -/
theorem settled_cut (h : Taken window now e es held) (waiting : List Entry) :
    es ++ (held.settled ++ waiting.map Entry.cut) = (e :: waiting).map Entry.cut := by
  rw [← List.append_assoc, h.settled]
  rfl

end Taken

/-! ### The ledger -/

/-- **A ledger.** -/
structure Ledger (τ : Type) where
  /-- The candidates that have arrived. -/
  fed : List Candidate
  /-- What is settled, in order. -/
  settled : List Entry
  /-- What is held. -/
  held : Held τ
  /-- What waits behind it. -/
  waiting : List Entry

namespace Ledger

variable {τ : Type}

/-- All entries of a ledger. -/
def entries (l : Ledger τ) : List Entry :=
  l.settled ++ (l.held.entries ++ l.waiting)

/-- Nothing waits, except for a signal. -/
def IsQuiet (l : Ledger τ) : Prop :=
  l.waiting ≠ [] → l.held.awaiting.isSome

variable [Add τ] [LE τ] [DecidableLE τ]

/-- **What can happen to a ledger** at a time, if an action stays open for its window. -/
inductive Deed (window : ActionCandidate → τ) (now : τ) : Ledger τ → Ledger τ → Prop
  /-- A candidate arrives. -/
  | arrive {fed : List Candidate} {settled waiting : List Entry} {held : Held τ} {e : Entry}
      (fresh : e.IsFresh) (number : e.number = fed.length) :
      Deed window now ⟨fed, settled, held, waiting⟩
        ⟨fed ++ [e.candidate], settled, held, waiting ++ [e]⟩
  /-- The open action is settled at its deadline. -/
  | expire {fed : List Candidate} {settled waiting : List Entry} {c : ActionCandidate} {n : ℕ}
      {attached : List (SignalCandidate × ℕ)} {deadline : τ}
      {bears : c.action.kind.bearsSignals}
      {missing : ∀ s ∈ attached, c.awaiting ≠ some s.1.signal.kind} (due : deadline ≤ now) :
      Deed window now ⟨fed, settled, .opened c n attached deadline bears missing, waiting⟩
        ⟨fed, settled ++ [.action c n [] attached c.awaiting], .nothing, waiting⟩
  /-- A fill gives way to the next one of its key. -/
  | merge {fed : List Candidate} {settled waiting : List Entry} {c d : ActionCandidate} {n k : ℕ}
      {replaced : List (ActionCandidate × ℕ)} {first : c.isMergeable} (second : d.isMergeable)
      (key : c.key = d.key) :
      Deed window now
        ⟨fed, settled, .fill c n replaced first, .action d k [] [] none :: waiting⟩
        ⟨fed, settled, .fill d k (replaced ++ [(c, n)]) second, waiting⟩
  /-- What is held is settled, and the first that waits is taken up. -/
  | take {fed : List Candidate} {settled waiting es : List Entry} {e : Entry} {held next : Held τ}
      (free : held.awaiting = none) (other : held.takesIn now e.candidate = false)
      (taken : Taken window now e es next) :
      Deed window now ⟨fed, settled, held, e :: waiting⟩
        ⟨fed, settled ++ (held.settled ++ es), next, waiting⟩
  /-- The open action receives a signal that it does not await. -/
  | receive {fed : List Candidate} {settled between behind : List Entry} {c : ActionCandidate}
      {n k : ℕ} {attached : List (SignalCandidate × ℕ)} {deadline : τ} {s : SignalCandidate}
      {bears : c.action.kind.bearsSignals}
      {missing : ∀ s ∈ attached, c.awaiting ≠ some s.1.signal.kind}
      (received : Coalescer.receives
        ⟨Entry.receiving c attached, deadline, c.awaiting⟩ s now = true)
      (missing' : ∀ t ∈ attached ++ [(s, k)], c.awaiting ≠ some t.1.signal.kind) :
      Deed window now ⟨fed, settled, .opened c n attached deadline bears missing,
          between ++ .standalone s k :: behind⟩
        ⟨fed, settled, .opened c n (attached ++ [(s, k)]) deadline bears missing',
          between ++ behind⟩
  /-- The open action receives the signal that it awaits, and is settled. -/
  | fulfil {fed : List Candidate} {settled between behind : List Entry} {c : ActionCandidate}
      {n k : ℕ} {attached : List (SignalCandidate × ℕ)} {deadline : τ} {s : SignalCandidate}
      {bears : c.action.kind.bearsSignals}
      {missing : ∀ s ∈ attached, c.awaiting ≠ some s.1.signal.kind}
      (received : Coalescer.receives
        ⟨Entry.receiving c attached, deadline, c.awaiting⟩ s now = true)
      (awaited : c.awaiting = some s.signal.kind) :
      Deed window now ⟨fed, settled, .opened c n attached deadline bears missing,
          between ++ .standalone s k :: behind⟩
        ⟨fed, settled ++ [.action c n [] (attached ++ [(s, k)]) none], .nothing,
          between ++ behind⟩

/-- Deeds, one after the other. -/
def Deeds (window : ActionCandidate → τ) (now : τ) : Ledger τ → Ledger τ → Prop :=
  Relation.ReflTransGen (Deed window now)

variable {window : ActionCandidate → τ} {now : τ} {l l' : Ledger τ}

omit [Add τ] in
/-- A signal that is received is of the page of the action, and the first of its kind. -/
theorem of_receives {o : OpenAction τ} {s : SignalCandidate}
    (h : Coalescer.receives o s now = true) :
    s.page = o.action.page ∧ o.action.signal? s.signal.kind = none := by
  simp only [Coalescer.receives, Bool.and_eq_true, beq_iff_eq, decide_eq_true_eq,
    Option.isNone_iff_eq_none] at h
  exact ⟨h.1.1.symm, h.2⟩

/-- **A deed settles further entries**, and nothing that was settled changes. -/
theorem Deed.settled (h : Deed window now l l') :
    ∃ further, l'.settled = l.settled ++ further := by
  cases h with
  | arrive | merge | receive => exact ⟨[], (List.append_nil _).symm⟩
  | expire | take | fulfil => exact ⟨_, rfl⟩

/-- **A deed keeps the account.** -/
theorem Deed.account (h : Deed window now l l') (hl : Account l.fed l.entries) :
    Account l'.fed l'.entries := by
  cases h with
  | arrive fresh number => simpa [entries] using hl.push fresh number
  | expire due => simpa [entries, Held.entries, Held.settled] using Held.account_settled hl
  | @merge _ _ _ _ _ _ _ _ first second key => exact hl.merge first second key
  | take free other taken =>
    have hsettled := Held.account_settled hl
    rw [← List.singleton_append, ← taken.entries] at hsettled
    simpa [entries] using hsettled
  | @receive _ _ _ _ _ _ _ _ _ _ bears _ received missing' =>
    obtain ⟨hpage, hfirst⟩ := of_receives received
    simpa [entries, Held.entries] using hl.attach bears hpage hfirst
  | @fulfil _ _ _ _ _ _ _ _ _ _ bears _ received awaited =>
    obtain ⟨hpage, hfirst⟩ := of_receives received
    simpa [entries, Held.entries] using hl.attach bears hpage hfirst

/-- **What every deed keeps**, deeds keep. -/
theorem Deeds.keep {P : Ledger τ → Prop} (h : Deeds window now l l')
    (hstep : ∀ k k', Deed window now k k' → P k → P k') (hl : P l) : P l' := by
  induction h with
  | refl => exact hl
  | tail _ hdeed ih => exact hstep _ _ hdeed ih

theorem Deeds.account (h : Deeds window now l l') (hl : Account l.fed l.entries) :
    Account l'.fed l'.entries :=
  h.keep (P := fun l => Account l.fed l.entries) (fun _ _ hdeed => hdeed.account) hl

omit [Add τ] [LE τ] [DecidableLE τ] in
/-- What waits is cut short: the account stays one. -/
theorem account_cut {fed : List Candidate} {before waiting : List Entry}
    (h : Account fed (before ++ waiting)) (hfresh : ∀ e ∈ waiting, e.IsFresh) :
    Account fed (before ++ waiting.map Entry.cut) := by
  induction waiting generalizing before with
  | nil => exact h
  | cons e rest ih =>
    have hcut : Account fed (before ++ e.cut :: rest) := by
      have he := hfresh e List.mem_cons_self
      cases he with
      | action c n =>
        refine h.replace (.action (by simp) (by simp) (by simp) fun k hk => ⟨?_, by simp⟩) rfl rfl
          (.refl _)
        split at hk
        · exact hk
        · cases hk
      | standalone s n => exact h
    have hrest : Account fed ((before ++ [e.cut]) ++ rest.map Entry.cut) :=
      ih (by simpa using hcut) fun f hf => hfresh f (List.mem_cons_of_mem _ hf)
    simpa using hrest

omit [Add τ] [LE τ] [DecidableLE τ] in
/-- **Everything is settled**: the account stays one. -/
theorem account_end (hl : Account l.fed l.entries) (hfresh : ∀ e ∈ l.waiting, e.IsFresh) :
    Account l.fed (l.settled ++ (l.held.settled ++ l.waiting.map Entry.cut)) := by
  have hsettled := Held.account_settled hl
  rw [← List.append_assoc] at hsettled ⊢
  exact account_cut hsettled hfresh

end Ledger

/-! ### What a coalescer shows of its ledger -/

namespace Coalescer

variable {τ : Type}

/-- How long an action stays open. -/
def window (m : Coalescer τ) (c : ActionCandidate) : τ :=
  if c.awaiting.isSome then m.syncTimeout else m.signalWindow

/-- **A coalescer shows a ledger**, up to the numbers of the candidates. -/
structure Shows (m : Coalescer τ) (l : Ledger τ) : Prop where
  fill : m.fill = l.held.fill?
  opened : m.opened = l.held.opened?
  backlog : m.backlog = l.waiting.map Entry.candidate
  fresh : ∀ e ∈ l.waiting, e.IsFresh

section

variable {m : Coalescer τ} {l : Ledger τ}

theorem Shows.isAwaiting (h : m.Shows l) : m.isAwaiting = l.held.awaiting.isSome := by
  rw [Coalescer.isAwaiting, h.opened]
  cases l.held with
  | nothing => rfl
  | fill => rfl
  | opened => rfl

/-- A candidate goes behind the backlog. -/
theorem Shows.push {fed fed' : List Candidate} {settled waiting : List Entry} {held : Held τ}
    (h : m.Shows ⟨fed, settled, held, waiting⟩) {e : Entry} (he : e.IsFresh) :
    ({ m with backlog := m.backlog ++ [e.candidate] } : Coalescer τ).Shows
      ⟨fed', settled, held, waiting ++ [e]⟩ := by
  refine ⟨h.fill, h.opened, by simp [h.backlog], fun f hf => ?_⟩
  rcases List.mem_append.mp hf with hf | hf
  · exact h.fresh f hf
  · rw [List.mem_singleton.mp hf]
    exact he

/-- An open action that is settled yields its entry. -/
theorem settle_opened (c : ActionCandidate) (n : ℕ) (attached : List (SignalCandidate × ℕ))
    (deadline : τ) :
    OpenAction.settle ⟨Entry.receiving c attached, deadline, c.awaiting⟩ =
      .ofEntries [.action c n [] attached c.awaiting] := by
  cases hc : c.awaiting <;> rfl

/-- **What is held is settled**, and yields its entry. -/
theorem Shows.settleHeld (h : m.Shows l) : m.settleHeld.2 = .ofEntries l.held.settled := by
  rw [Coalescer.settleHeld, openYield, h.fill, h.opened]
  cases l.held with
  | nothing => rfl
  | fill c n replaced mergeable =>
    change Yield.append _ _ = _
    simp [Yield.append, Yield.ofEntries, Held.fill?, Held.opened?, Held.settled, Entry.committed,
      Entry.warning]
  | opened c n attached deadline bears missing =>
    exact (Yield.ofEntries_nil_append _).trans (settle_opened c n attached deadline)

/-- **What a result reaches** from a ledger: by deeds, it comes to a ledger that the coalescer then
shows, where the candidates `arrived` have arrived, and yields the entries that were settled. -/
structure Reaches [Add τ] [LE τ] [DecidableLE τ] (window : ActionCandidate → τ) (now : τ)
    (l : Ledger τ) (arrived : List Candidate) (r : Coalescer τ × Yield) (l' : Ledger τ) : Prop where
  deeds : l.Deeds window now l'
  shows : r.1.Shows l'
  windows : r.1.window = window
  fed : l'.fed = l.fed ++ arrived
  yields : ∃ further, l'.settled = l.settled ++ further ∧ r.2 = .ofEntries further

end

section

variable [Add τ] [LE τ] [DecidableLE τ] {window : ActionCandidate → τ} {now : τ}
  {l l₁ l₂ : Ledger τ} {m : Coalescer τ} {r t : Coalescer τ × Yield}
  {arrived later : List Candidate}

namespace Reaches

theorem refl (h : m.Shows l) (hw : m.window = window) : Reaches window now l [] (m, {}) l :=
  ⟨.refl, h, hw, by simp, [], by simp, rfl⟩

/-- One result after another. -/
theorem trans (h : Reaches window now l arrived r l₁) (ht : Reaches window now l₁ later t l₂) :
    Reaches window now l (arrived ++ later) (t.1, r.2 ++ t.2) l₂ where
  deeds := Relation.ReflTransGen.trans h.deeds ht.deeds
  shows := ht.shows
  windows := ht.windows
  fed := by rw [ht.fed, h.fed, List.append_assoc]
  yields := by
    obtain ⟨first, hfirst, hr⟩ := h.yields
    obtain ⟨second, hsecond, ht⟩ := ht.yields
    refine ⟨first ++ second, ?_, ?_⟩
    · rw [hsecond, hfirst, List.append_assoc]
    · rw [hr, ht, Yield.ofEntries_append]

theorem refused (h : Reaches window now l arrived r l₁) : r.2.refused = false := by
  obtain ⟨further, -, hr⟩ := h.yields
  rw [hr]
  rfl

/-- A deed in front. -/
theorem head (hdeed : Ledger.Deed window now l l₁) (hfed : l₁.fed = l.fed ++ arrived)
    {further : List Entry} (hsettled : l₁.settled = l.settled ++ further)
    (h : Reaches window now l₁ later r l₂) :
    Reaches window now l (arrived ++ later) (r.1, .ofEntries further ++ r.2) l₂ where
  deeds := .head hdeed h.deeds
  shows := h.shows
  windows := h.windows
  fed := by rw [h.fed, hfed, List.append_assoc]
  yields := by
    obtain ⟨second, hsecond, hr⟩ := h.yields
    refine ⟨further ++ second, ?_, ?_⟩
    · rw [hsecond, hsettled, List.append_assoc]
    · rw [hr, Yield.ofEntries_append]

/-- Just one deed. -/
theorem single (hdeed : Ledger.Deed window now l l₁) (hfed : l₁.fed = l.fed ++ arrived)
    {further : List Entry} (hsettled : l₁.settled = l.settled ++ further) (h : m.Shows l₁)
    (hw : m.window = window) : Reaches window now l arrived (m, .ofEntries further) l₁ :=
  ⟨.single hdeed, h, hw, hfed, further, hsettled, rfl⟩

end Reaches

/-! ### Taking up a candidate -/

/-- **A candidate is taken up** while nothing is held. -/
theorem exists_taken {fed : List Candidate} {settled waiting : List Entry}
    (h : m.Shows ⟨fed, settled, .nothing, waiting⟩) {e : Entry} (he : e.IsFresh) (now : τ) :
    ∃ es held, Taken m.window now e es held ∧
      (m.absorb e.candidate now).1.Shows ⟨fed, settled ++ es, held, waiting⟩ ∧
      (m.absorb e.candidate now).2 = .ofEntries es := by
  have hfill : m.fill = none := h.fill
  have hopened : m.opened = none := h.opened
  cases he with
  | action c n =>
    simp only [Entry.candidate, absorb, absorbAction, hfill, Option.any_none, Bool.and_false,
      Bool.false_eq_true, if_false, h.settleHeld]
    cases hc : c.isMergeable with
    | true =>
      exact ⟨[], _, .fill hc, ⟨rfl, rfl, h.backlog, h.fresh⟩, rfl⟩
    | false =>
      cases hb : c.action.kind.bearsSignals with
      | true =>
        refine ⟨[], _, .opened hb, ⟨rfl, ?_, h.backlog, h.fresh⟩, rfl⟩
        simp [Held.opened?, window, settleHeld]
      | false =>
        refine ⟨_, _, .action hc hb, ⟨rfl, rfl, h.backlog, h.fresh⟩, ?_⟩
        simp [Held.settled, Yield.ofEntries, Entry.committed, Entry.warning]
        rfl
  | standalone s n =>
    have hawaiting : m.isAwaiting = false := h.isAwaiting
    simp only [Entry.candidate, absorb, absorbSignal, hopened, hawaiting, Bool.false_eq_true,
      if_false, h.settleHeld]
    exact ⟨_, _, .signal, ⟨rfl, rfl, h.backlog, h.fresh⟩, rfl⟩

/-- **Only what is held and what waits changes** when a candidate is taken up. -/
theorem absorb_frame (m : Coalescer τ) (c : Candidate) (now : τ) :
    ∃ fill opened backlog,
      (m.absorb c now).1 = { m with fill := fill, opened := opened, backlog := backlog } := by
  cases c with
  | action c =>
    simp only [absorb, absorbAction, settleHeld]
    repeat' split
    all_goals exact ⟨_, _, _, rfl⟩
  | signal s =>
    simp only [absorb, absorbSignal, settleHeld]
    repeat' split
    all_goals exact ⟨_, _, _, rfl⟩
  | foreign => exact ⟨_, _, _, rfl⟩

/-- The windows stay as they are. -/
theorem window_absorb (m : Coalescer τ) (c : Candidate) (now : τ) :
    (m.absorb c now).1.window = m.window := by
  obtain ⟨_, _, _, h⟩ := m.absorb_frame c now
  rw [h]
  rfl

/-- A candidate that what is held does not take in is taken up once that is settled. -/
theorem absorb_of_other (h : m.Shows l) (hfree : l.held.awaiting = none) {e : Entry}
    (hother : l.held.takesIn now e.candidate = false) :
    m.absorb e.candidate now = ((m.settleHeld.1.absorb e.candidate now).1,
      m.settleHeld.2 ++ (m.settleHeld.1.absorb e.candidate now).2) := by
  have hsettled : (m.settleHeld.1.settleHeld : Coalescer τ × Yield) =
      (m.settleHeld.1, .ofEntries []) := rfl
  cases e with
  | action c n =>
    have hmerge : (c.isMergeable && m.fill.any (·.key == c.key)) = false := by
      rw [h.fill]
      exact hother
    have hmerge' : (c.isMergeable && m.settleHeld.1.fill.any (·.key == c.key)) = false :=
      Bool.and_false _
    simp only [Entry.candidate, absorb, absorbAction, hmerge, hmerge', Bool.false_eq_true, if_false,
      hsettled]
    split
    · simp
    split
    · simp [settleHeld]
    · simp
  | standalone s n =>
    have hawaiting : m.isAwaiting = false := by
      rw [h.isAwaiting, hfree]
      rfl
    have hawaiting' : m.settleHeld.1.isAwaiting = false := rfl
    have hnone : m.settleHeld.1.opened = none := rfl
    simp only [Entry.candidate, absorb, absorbSignal, hnone, hawaiting, hawaiting',
      Bool.false_eq_true, if_false, hsettled, Yield.ofEntries_nil_append]
    cases ho : m.opened with
    | none => rfl
    | some o =>
      have hreceives : receives o s now = false := by
        have hany := hother
        rw [Entry.candidate, Held.takesIn, ← h.opened, ho] at hany
        exact hany
      simp only [hreceives, Bool.false_eq_true, if_false]

/-- **The open action receives a signal**, and is settled if it awaited just this one. -/
theorem receive_reaches {fed : List Candidate} {settled : List Entry} (between behind : List Entry)
    {held : Held τ} (h : m.Shows ⟨fed, settled, held, between ++ behind⟩) (hw : m.window = window)
    {o : OpenAction τ} (ho : held.opened? = some o) {s : SignalCandidate} (n : ℕ)
    (hreceives : receives o s now = true) :
    ∃ l', Reaches window now ⟨fed, settled, held, between ++ .standalone s n :: behind⟩ []
        (m.absorbSignal s now) l' := by
  have hfill : m.fill = held.fill? := h.fill
  have hopened : m.opened = some o := h.opened.trans ho
  obtain ⟨c, k, attached, bears, missing, rfl, hopen⟩ := Held.of_opened? ho
  rw [hopen] at hreceives hopened
  have haction : (Entry.receiving c attached).withSignal s.signal =
      Entry.receiving c (attached ++ [(s, n)]) := by
    simp [Action.withSignal, Entry.receiving]
  simp only [absorbSignal, hopened, hreceives, if_true, haction]
  by_cases hkind : c.awaiting = some s.signal.kind
  · refine ⟨⟨fed, settled ++ [.action c k [] (attached ++ [(s, n)]) none], .nothing,
      between ++ behind⟩, ?_⟩
    rw [if_pos (beq_iff_eq.mpr hkind)]
    have hsettle : ({ m with
        opened := some ⟨Entry.receiving c (attached ++ [(s, n)]), o.deadline, none⟩ } :
          Coalescer τ).settleHeld = ({ m with fill := none, opened := none },
            .ofEntries [.action c k [] (attached ++ [(s, n)]) none]) := by
      simp only [settleHeld, hfill]
      rfl
    rw [hsettle]
    exact .single (.fulfil hreceives hkind) (List.append_nil _).symm rfl
      ⟨rfl, rfl, h.backlog, h.fresh⟩ hw
  · refine ⟨⟨fed, settled, .opened c k (attached ++ [(s, n)]) o.deadline bears ?_,
      between ++ behind⟩, ?_⟩
    · intro t ht
      rcases List.mem_append.mp ht with ht | ht
      · exact missing t ht
      · rw [List.mem_singleton.mp ht]
        exact hkind
    · rw [if_neg (by simpa using hkind)]
      exact .single (.receive hreceives _) (List.append_nil _).symm (List.append_nil _).symm
        ⟨hfill, rfl, h.backlog, h.fresh⟩ hw

omit [Add τ] in
/-- An open action that awaits nothing receives a signal and stays open. -/
theorem absorbSignal_of_receives {o : OpenAction τ} (ho : m.opened = some o)
    (hfree : o.awaiting = none) {s : SignalCandidate} (hreceives : receives o s now = true) :
    m.absorbSignal s now =
      ({ m with opened := some { o with action := o.action.withSignal s.signal } }, {}) := by
  rw [absorbSignal, ho]
  simp only [hreceives, hfree, if_true]
  rfl

/-- **A candidate that what is held takes in** changes nothing but that, and settles nothing. -/
theorem absorb_of_takesIn {fed : List Candidate} {settled waiting : List Entry} {held : Held τ}
    (h : m.Shows ⟨fed, settled, held, waiting⟩) (hfree : held.awaiting = none) {e : Entry}
    (he : e.IsFresh) (htakes : held.takesIn now e.candidate = true) :
    ∃ next, Ledger.Deed window now ⟨fed, settled, held, e :: waiting⟩
        ⟨fed, settled, next, waiting⟩ ∧
      (m.absorb e.candidate now).1.Shows ⟨fed, settled, next, waiting⟩ ∧
      (m.absorb e.candidate now).2 = {} ∧ next.awaiting = none ∧
      next.settled.length = held.settled.length := by
  cases he with
  | action c n =>
    -- the fill that is held gives way
    obtain ⟨hc, hany⟩ := Bool.and_eq_true_iff.mp htakes
    obtain ⟨d, hd, hkey⟩ := (Option.any_eq_true _ _).mp hany
    obtain ⟨k, replaced, hmergeable, rfl⟩ := Held.of_fill? hd
    have hmerge : (c.isMergeable && m.fill.any (·.key == c.key)) = true := by
      rw [h.fill]
      exact htakes
    have habsorb : m.absorb (.action c) now = ({ m with fill := some c }, {}) := by
      simp only [absorb, absorbAction, hmerge, if_true]
    rw [Entry.candidate, habsorb]
    exact ⟨.fill c n (replaced ++ [(d, k)]) hc, .merge hc (eq_of_beq hkey),
      ⟨rfl, h.opened, h.backlog, h.fresh⟩, rfl, rfl, rfl⟩
  | standalone s n =>
    -- the open action receives the signal, and awaits none
    obtain ⟨o, ho, hreceives⟩ := (Option.any_eq_true _ _).mp htakes
    obtain ⟨c, k, attached, bears, missing, rfl, hopen⟩ := Held.of_opened? ho
    have hnone : c.awaiting = none := hfree
    have hawaiting : o.awaiting = none := by
      rw [hopen]
      exact hnone
    have hmissing : ∀ t ∈ attached ++ [(s, n)], c.awaiting ≠ some t.1.signal.kind := by
      simp [hnone]
    have habsorb : m.absorb (.signal s) now =
        ({ m with opened := some { o with action := o.action.withSignal s.signal } }, {}) :=
      absorbSignal_of_receives (h.opened.trans ho) hawaiting hreceives
    have hreceiving : o.action.withSignal s.signal = Entry.receiving c (attached ++ [(s, n)]) := by
      rw [hopen]
      simp [Action.withSignal, Entry.receiving]
    rw [hopen] at hreceives
    have hdeed : Ledger.Deed window now
        ⟨fed, settled, .opened c k attached o.deadline bears missing,
          [] ++ .standalone s n :: waiting⟩
        ⟨fed, settled, .opened c k (attached ++ [(s, n)]) o.deadline bears hmissing,
          [] ++ waiting⟩ :=
      .receive hreceives hmissing
    rw [Entry.candidate, habsorb, hreceiving, hawaiting]
    exact ⟨.opened c k (attached ++ [(s, n)]) o.deadline bears hmissing, hdeed,
      ⟨h.fill, by rw [Held.opened?, hnone], h.backlog, h.fresh⟩, rfl, hnone, rfl⟩

/-- **A candidate that what is held does not take in** is taken up once that is settled. -/
theorem absorb_of_not_takesIn {fed : List Candidate} {settled waiting : List Entry} {held : Held τ}
    (h : m.Shows ⟨fed, settled, held, waiting⟩) (hfree : held.awaiting = none) {e : Entry}
    (he : e.IsFresh) (hother : held.takesIn now e.candidate = false) :
    ∃ es next, Taken m.window now e es next ∧
      (m.absorb e.candidate now).1.Shows ⟨fed, settled ++ (held.settled ++ es), next, waiting⟩ ∧
      (m.absorb e.candidate now).2 = .ofEntries (held.settled ++ es) := by
  have hnothing : m.settleHeld.1.Shows ⟨fed, settled ++ held.settled, .nothing, waiting⟩ :=
    ⟨rfl, rfl, h.backlog, h.fresh⟩
  obtain ⟨es, next, htaken, hshows, hyields⟩ := exists_taken hnothing he now
  rw [List.append_assoc] at hshows
  rw [absorb_of_other h hfree hother, h.settleHeld, hyields, ← Yield.ofEntries_append]
  exact ⟨es, next, htaken, hshows, rfl⟩

/-- **A candidate is taken up** while no signal is awaited. -/
theorem absorb_reaches {fed : List Candidate} {settled waiting : List Entry} {held : Held τ}
    (h : m.Shows ⟨fed, settled, held, waiting⟩) (hw : m.window = window)
    (hfree : held.awaiting = none) {e : Entry} (he : e.IsFresh) (now : τ) :
    ∃ l', Reaches window now ⟨fed, settled, held, e :: waiting⟩ []
      (m.absorb e.candidate now) l' := by
  cases htakes : held.takesIn now e.candidate with
  | false =>
    obtain ⟨es, next, htaken, hshows, hyields⟩ := absorb_of_not_takesIn h hfree he htakes
    refine ⟨⟨fed, settled ++ (held.settled ++ es), next, waiting⟩, ?_⟩
    subst hw
    rw [show m.absorb e.candidate now =
      ((m.absorb e.candidate now).1, .ofEntries (held.settled ++ es)) from Prod.ext rfl hyields]
    exact .single (.take hfree htakes htaken) (List.append_nil _).symm rfl hshows
      (window_absorb _ _ _)
  | true =>
    obtain ⟨next, (hdeed : Ledger.Deed window now _ _), hshows, hyields, -, -⟩ :=
      absorb_of_takesIn h hfree he htakes
    refine ⟨⟨fed, settled, next, waiting⟩, ?_⟩
    rw [show m.absorb e.candidate now = ((m.absorb e.candidate now).1, .ofEntries []) from
      Prod.ext rfl hyields]
    exact .single hdeed (List.append_nil _).symm (List.append_nil _).symm hshows
      ((window_absorb _ _ _).trans hw)

/-! ### Working off what waits -/

/-- **The backlog is worked off** as far as it goes. -/
theorem drainList_reaches {backlog : List Candidate} (h : m.Shows l) (hw : m.window = window)
    (hb : m.backlog = backlog) (now : τ) :
    ∃ l', Reaches window now l [] (drainList now m backlog) l' ∧ l'.IsQuiet := by
  induction backlog generalizing m l with
  | nil =>
    have hnone : l.waiting = [] := List.map_eq_nil_iff.mp (h.backlog.symm.trans hb)
    exact ⟨l, .refl ⟨h.fill, h.opened, by simp [hnone], h.fresh⟩ hw, fun hne => absurd hnone hne⟩
  | cons c rest ih =>
    obtain ⟨fed, settled, held, waiting⟩ := l
    obtain ⟨e, waiting, rfl, rfl, rfl⟩ := List.map_eq_cons_iff.mp (h.backlog.symm.trans hb)
    rw [drainList]
    split
    · next hm =>
      rw [h.isAwaiting] at hm
      exact ⟨_, .refl ⟨h.fill, h.opened, rfl, h.fresh⟩ hw, fun _ => hm⟩
    · next hm =>
      rw [h.isAwaiting, Bool.not_eq_true, Option.isSome_eq_false_iff,
        Option.isNone_iff_eq_none] at hm
      have hrest : ({ m with backlog := waiting.map Entry.candidate } : Coalescer τ).Shows
          ⟨fed, settled, held, waiting⟩ :=
        ⟨h.fill, h.opened, rfl, fun f hf => h.fresh f (List.mem_cons_of_mem _ hf)⟩
      obtain ⟨l₁, h₁⟩ := absorb_reaches hrest hw hm (h.fresh e List.mem_cons_self) now
      have hb₁ :
          ({ m with backlog := waiting.map Entry.candidate }.absorb e.candidate now).1.backlog
          = waiting.map Entry.candidate :=
        absorb_backlog (by rw [hrest.isAwaiting, hm]; rfl) _ _
      obtain ⟨l₂, h₂, hquiet⟩ := ih h₁.shows h₁.windows hb₁
      dsimp only
      rw [if_neg (Bool.eq_false_iff.mp h₁.refused)]
      exact ⟨l₂, h₁.trans h₂, hquiet⟩

/-- **What has expired is settled**, and what waits behind it is worked off. -/
theorem expire_reaches (now : τ) (h : m.Shows l) (hw : m.window = window) (hquiet : l.IsQuiet) :
    ∃ l', Reaches window now l [] (expire now m) l' ∧ l'.IsQuiet := by
  induction m using expire_induction now generalizing l with
  | still m hstill =>
    rw [expire_of_not_due hstill]
    exact ⟨l, .refl h hw, hquiet⟩
  | due m o ho hdue ih =>
    obtain ⟨fed, settled, held, waiting⟩ := l
    obtain ⟨c, n, attached, bears, missing, rfl, hopen⟩ := Held.of_opened? (h.opened.symm.trans ho)
    have hnothing : ({ m with opened := none } : Coalescer τ).Shows
        ⟨fed, settled ++ [.action c n [] attached c.awaiting], .nothing, waiting⟩ :=
      ⟨h.fill, rfl, h.backlog, h.fresh⟩
    obtain ⟨l₁, h₁, hquiet₁⟩ := drainList_reaches hnothing hw rfl now
    obtain ⟨l₂, h₂, hquiet₂⟩ := ih h₁.shows h₁.windows hquiet₁
    have hsettle : o.settle = .ofEntries [.action c n [] attached c.awaiting] := by
      rw [hopen, settle_opened]
    rw [expire_of_due ho hdue h₁.refused, hsettle]
    exact ⟨l₂, (h₁.head (.expire hdue) (List.append_nil _).symm rfl).trans h₂, hquiet₂⟩

variable [LT τ] [DecidableLT τ]

/-- **Time goes by.** -/
theorem tick_reaches (h : m.Shows l) (hw : m.window = window) (hquiet : l.IsQuiet) (now : τ) :
    ∃ l', Reaches window now l [] (m.tick now) l' ∧ l'.IsQuiet :=
  expire_reaches now (m := { m with lastNow := Coalescer.later m.lastNow now })
    ⟨h.fill, h.opened, h.backlog, h.fresh⟩ hw hquiet

omit [LT τ] [DecidableLT τ] in
/-- A candidate that has arrived is taken up at once when no signal is awaited. -/
theorem take_reaches_of_free {fed : List Candidate} {settled : List Entry} {held : Held τ}
    (h : m.Shows ⟨fed, settled, held, []⟩) (hw : m.window = window) (hfree : held.awaiting = none)
    {e : Entry} (he : e.IsFresh) (now : τ) :
    ∃ l', Reaches window now ⟨fed, settled, held, [e]⟩ [] (m.take e.candidate now) l' ∧
      l'.IsQuiet := by
  have hm : m.isAwaiting = false := by rw [h.isAwaiting, hfree]; rfl
  obtain ⟨l', hl'⟩ := absorb_reaches h hw hfree he now
  have hnone : l'.waiting = [] := by
    rw [← List.map_eq_nil_iff, ← hl'.shows.backlog, absorb_backlog hm, h.backlog]
    rfl
  rw [take, hm]
  exact ⟨l', hl', fun hne => absurd hnone hne⟩

omit [LT τ] [DecidableLT τ] in
/-- A signal that has arrived while one is awaited goes to the open action, or has to wait. The one
that is awaited sets free what waits. -/
theorem take_reaches_of_awaiting {fed : List Candidate} {settled waiting : List Entry}
    {held : Held τ} (h : m.Shows ⟨fed, settled, held, waiting⟩) (hw : m.window = window)
    (hheld : held.awaiting.isSome) (s : SignalCandidate) (n : ℕ) (now : τ) :
    ∃ l', Reaches window now ⟨fed, settled, held, waiting ++ [.standalone s n]⟩ []
        (m.take (.signal s) now) l' ∧ l'.IsQuiet := by
  have hm : m.isAwaiting = true := h.isAwaiting.trans hheld
  obtain ⟨o, ho, hawaiting⟩ := (Option.any_eq_true _ _).mp hm
  have hopen : held.opened? = some o := h.opened.symm.trans ho
  cases hreceives : receives o s now with
  | true =>
    obtain ⟨l₁, h₁⟩ :=
      receive_reaches waiting [] (by simpa using h) hw hopen n hreceives
    simp only [take, hm, Bool.true_and]
    cases hfree : l₁.held.awaiting with
    | none =>
      have hm₁ : (m.absorb (.signal s) now).1.isAwaiting = false := by
        rw [absorb, h₁.shows.isAwaiting, hfree]
        rfl
      obtain ⟨l₂, h₂, hquiet⟩ := drainList_reaches h₁.shows h₁.windows rfl now
      simp only [hm₁, Bool.not_false, if_true]
      exact ⟨l₂, h₁.trans h₂, hquiet⟩
    | some k =>
      have hm₁ : (m.absorb (.signal s) now).1.isAwaiting = true := by
        rw [absorb, h₁.shows.isAwaiting, hfree]
        rfl
      simp only [hm₁, Bool.not_true, Bool.false_eq_true, if_false]
      exact ⟨l₁, h₁, fun _ => by rw [hfree]; rfl⟩
  | false =>
    have habsorb : m.absorb (.signal s) now =
        ({ m with backlog := m.backlog ++ [.signal s] }, {}) := by
      simp only [absorb, absorbSignal, ho, hreceives, Bool.false_eq_true, if_false, hm, if_true]
    have hm' :
        ({ m with backlog := m.backlog ++ [.signal s] } : Coalescer τ).isAwaiting = true := hm
    refine ⟨⟨fed, settled, held, waiting ++ [.standalone s n]⟩, ?_, fun _ => hheld⟩
    simp only [take, habsorb, hm, hm', Bool.not_true, Bool.and_false, Bool.false_eq_true, if_false]
    exact .refl (h.push (.standalone s n)) hw

/-- **The next candidate.** -/
theorem feed_reaches (h : m.Shows l) (hw : m.window = window) (hquiet : l.IsQuiet) {e : Entry}
    (he : e.IsFresh) (hn : e.number = l.fed.length) (now : τ) :
    ∃ l', Reaches window now l [e.candidate] (m.feed e.candidate now) l' ∧ l'.IsQuiet := by
  obtain ⟨⟨fed, settled, held, waiting⟩, htick, hquiet₁⟩ := tick_reaches h hw hquiet now
  have harrive : Ledger.Deed window now ⟨fed, settled, held, waiting⟩
      ⟨fed ++ [e.candidate], settled, held, waiting ++ [e]⟩ := by
    refine .arrive he (hn.trans ?_)
    rw [show fed = l.fed by simpa using htick.fed]
  have hshows := htick.shows
  rw [feed]
  dsimp only
  rw [if_neg (Bool.eq_false_iff.mp htick.refused), hshows.isAwaiting]
  cases hheld : held.awaiting.isSome with
  | false =>
    rw [Option.isSome_eq_false_iff, Option.isNone_iff_eq_none] at hheld
    obtain rfl : waiting = [] := by
      by_contra hne
      simpa [hheld] using hquiet₁ hne
    have hfed : (m.tick now).1.Shows ⟨fed ++ [e.candidate], settled, held, []⟩ :=
      ⟨hshows.fill, hshows.opened, hshows.backlog, hshows.fresh⟩
    obtain ⟨l', hl', hquiet'⟩ := take_reaches_of_free hfed htick.windows hheld he now
    exact ⟨l', htick.trans (hl'.head harrive rfl (List.append_nil _).symm), hquiet'⟩
  | true =>
    cases he with
    | action c n =>
      have hpush : ({ (m.tick now).1 with
          backlog := (m.tick now).1.backlog ++ [.action c] } : Coalescer τ).Shows
            ⟨fed ++ [.action c], settled, held, waiting ++ [.action c n [] [] none]⟩ :=
        hshows.push (.action c n)
      have hwait := htick.trans
        (Reaches.single harrive rfl (List.append_nil _).symm hpush htick.windows)
      rw [Yield.append_ofEntries_nil] at hwait
      exact ⟨_, hwait, fun _ => hheld⟩
    | standalone s n =>
      have hfed : (m.tick now).1.Shows ⟨fed ++ [.signal s], settled, held, waiting⟩ :=
        ⟨hshows.fill, hshows.opened, hshows.backlog, hshows.fresh⟩
      obtain ⟨l', hl', hquiet'⟩ := take_reaches_of_awaiting hfed htick.windows hheld s n now
      exact ⟨l', htick.trans (hl'.head harrive rfl (List.append_nil _).symm), hquiet'⟩

/-! ### The end -/

omit [LT τ] [DecidableLT τ] in
/-- What waits is settled one by one, and cut short. -/
theorem flushList_yields {waiting : List Entry} (h : m.Shows l) (hwaiting : l.waiting = waiting) :
    (flushList m (waiting.map Entry.candidate)).2 =
      .ofEntries (l.held.settled ++ waiting.map Entry.cut) := by
  induction waiting generalizing m l with
  | nil =>
    have hnone : ({ m with backlog := [] } : Coalescer τ).Shows l :=
      ⟨h.fill, h.opened, by rw [hwaiting]; rfl, h.fresh⟩
    simpa [flushList] using hnone.settleHeld
  | cons e rest ih =>
    have hnothing : ({ m.settleHeld.1 with
        backlog := rest.map Entry.candidate } : Coalescer τ).Shows ⟨l.fed, [], .nothing, rest⟩ :=
      ⟨rfl, rfl, rfl, fun f hf => h.fresh f (hwaiting ▸ List.mem_cons_of_mem _ hf)⟩
    obtain ⟨es, next, htaken, hshows, hyields⟩ :=
      exists_taken hnothing (h.fresh e (hwaiting ▸ List.mem_cons_self)) m.lastNow
    have hrest := ih hshows rfl
    have hrefused : ({ m.settleHeld.1 with
        backlog := rest.map Entry.candidate }.absorb e.candidate m.lastNow).2.refused = false := by
      rw [hyields]
      rfl
    rw [List.map_cons, flushList]
    refine (congrArg Prod.snd (if_neg (Bool.eq_false_iff.mp hrefused))).trans ?_
    refine (congrArg₂ (· ++ ·) (congrArg₂ (· ++ ·) h.settleHeld hyields) hrest).trans ?_
    simp only [← htaken.settled_cut, Yield.ofEntries_append, Yield.append_assoc]

omit [LT τ] [DecidableLT τ] in
/-- **Everything is settled** in order, and what waits is cut short. -/
theorem flush_yields (h : m.Shows l) :
    m.flush.2 = .ofEntries (l.held.settled ++ l.waiting.map Entry.cut) := by
  rw [flush, h.backlog]
  exact flushList_yields h rfl

omit [LT τ] [DecidableLT τ] in
/-- Nothing is pending after a flush that met no refusal. -/
theorem flushList_pending {backlog : List Candidate}
    (h : (flushList m backlog).2.refused = false) :
    (flushList m backlog).1.fill = none ∧ (flushList m backlog).1.opened = none ∧
      (flushList m backlog).1.backlog = [] := by
  induction backlog generalizing m with
  | nil => exact ⟨rfl, rfl, rfl⟩
  | cons c rest ih =>
    rw [flushList] at h ⊢
    dsimp only at h ⊢
    split at h
    · next hz => exact absurd ((Bool.or_eq_false_iff.mp h).2.symm.trans hz) Bool.false_ne_true
    · next hz =>
      rw [if_neg hz]
      exact ih (Bool.or_eq_false_iff.mp h).2

end

end Coalescer

end Scribe
