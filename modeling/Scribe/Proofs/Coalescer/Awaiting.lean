import Scribe.Proofs.Coalescer.Course

/-!
# Awaited signals

A signal-bearing action that awaits a signal is open until the signal comes, until its deadline has
come, or until everything is settled. Three things are shown of the deeds of a ledger:

* an entry that is settled is **resolved** (`Scribe.Entry.IsResolved`): what its action awaited it
  has received, or it has missed it and a warning says so;
* an action that awaits a signal is **pending** (`Scribe.Ledger.IsPending`): as long as it is held,
  nothing else is settled, and then it is the first that is settled;
* a signal is missed on time (`Scribe.Ledger.IsPunctual`): in a call, only an action whose deadline
  has come misses what it awaits, be it that it was open before, or that the call opened it.

`Scribe.Coalescer.runToEnd_awaited` says what this comes to for a whole run.
-/

namespace Scribe

/-! ### Resolved entries -/

namespace Entry

/-- **An entry is resolved.** -/
structure IsResolved (e : Entry) : Prop where
  /-- A signal-bearing action has received the signal that it awaited, or has missed it. -/
  awaited : ∀ c k, e.candidate = .action c → c.action.kind.bearsSignals → c.awaiting = some k →
    (e.missed = none ∧ ∃ s ∈ e.attached, s.1.signal.kind = k) ∨
      (e.missed = some k ∧ ∀ s ∈ e.attached, s.1.signal.kind ≠ k)
  /-- Nothing else is missed. -/
  missed : ∀ k, e.missed = some k →
    ∃ c, e.candidate = .action c ∧ c.action.kind.bearsSignals ∧ c.awaiting = some k

variable {e : Entry}

/-- What awaits nothing, and misses nothing, is resolved. -/
theorem isResolved_of_missed (h : e.missed = none)
    (hc : ∀ c, e.candidate = .action c → c.action.kind.bearsSignals → c.awaiting = none) :
    e.IsResolved where
  awaited c k he hb hk := absurd (hk.symm.trans (hc c he hb)) (Option.some_ne_none k)
  missed k hk := absurd (hk.symm.trans h) (Option.some_ne_none k)

theorem isSome_warning (e : Entry) : e.warning.isSome = e.missed.isSome := by
  cases e with
  | standalone => rfl
  | action c n replaced attached missed => cases missed <;> rfl

/-- What is cut short is resolved. -/
theorem IsFresh.isResolved_cut (h : e.IsFresh) : e.cut.IsResolved := by
  rcases h with ⟨c, n⟩ | ⟨s, n⟩
  · constructor
    · rintro d k hd hb hk
      cases hd
      refine Or.inr ⟨?_, fun s hs => absurd hs List.not_mem_nil⟩
      simp [cut, Entry.missed, hb, hk]
    · intro k hk
      simp only [cut, Entry.missed] at hk
      split at hk
      · next hb => exact ⟨c, rfl, hb, hk⟩
      · cases hk
  · exact isResolved_of_missed rfl fun c hc => by cases hc

/-- Only what awaited a signal is warned of. -/
theorem IsResolved.warned (h : e.IsResolved) (w : MissedSignal) (hw : e.warning = some w) :
    ∃ c, e.candidate = .action c ∧ c.action.kind.bearsSignals ∧ c.awaiting = some w.awaited := by
  cases e with
  | standalone => cases hw
  | action c n replaced attached missed =>
    obtain ⟨k, hk, rfl⟩ := Option.map_eq_some_iff.mp hw
    exact h.missed k hk

/-- **What a resolved entry commits**, if nothing was said of its signals before: the awaited
signal, or its name among the incomplete ones and a warning. -/
theorem IsResolved.committed (h : e.IsResolved) {c : ActionCandidate} {k : SignalKind}
    (hc : e.candidate = .action c) (hb : c.action.kind.bearsSignals) (hk : c.awaiting = some k)
    (hsignals : c.action.signals = []) (hincomplete : c.action.incompleteSignals = []) :
    ((e.committed.signal? k).isSome ∧ e.committed.incompleteSignals = [] ∧ e.warning = none) ∨
      (e.committed.signal? k = none ∧ e.committed.incompleteSignals = [k] ∧
        e.warning = some ⟨k, c.action.page, c.action.kind⟩) := by
  cases e with
  | standalone => cases hc
  | action d n replaced attached missed =>
    cases hc
    rcases h.awaited c k rfl hb hk with ⟨hmissed, s, hs, rfl⟩ | ⟨hmissed, hother⟩
    · obtain rfl : missed = none := hmissed
      refine Or.inl ⟨?_, hincomplete, rfl⟩
      simp only [Entry.committed, receiving, Action.signal?, hsignals, List.nil_append,
        List.find?_isSome, List.mem_map]
      exact ⟨_, ⟨s, hs, rfl⟩, beq_self_eq_true _⟩
    · obtain rfl : missed = some k := hmissed
      refine Or.inr ⟨?_, by simp [Entry.committed, hincomplete], rfl⟩
      simp only [Entry.committed, receiving, Action.signal?, hsignals, List.nil_append,
        List.find?_eq_none, List.mem_map]
      rintro _ ⟨s, hs, rfl⟩
      simpa using hother s hs

end Entry

/-- What is settled without having awaited anything has missed nothing. -/
theorem Held.missed_of_free {τ : Type} {held : Held τ} (h : held.awaiting = none) {e : Entry}
    (he : e ∈ held.settled) : e.missed = none := by
  cases held with
  | nothing => cases he
  | fill => rw [List.mem_singleton.mp he]; rfl
  | opened => rw [List.mem_singleton.mp he]; exact h

theorem Taken.missed {τ : Type} [Add τ] {window : ActionCandidate → τ} {now : τ} {e f : Entry}
    {es : List Entry} {held : Held τ} (h : Taken window now e es held) (hf : f ∈ es) :
    f.missed = none := by
  rcases h with _ | _ | _ | _
  · cases hf
  · cases hf
  · rw [List.mem_singleton.mp hf]; rfl
  · rw [List.mem_singleton.mp hf]; rfl

/-- **What is held is settled** as resolved. -/
theorem Held.isResolved_settled {τ : Type} {held : Held τ} {e : Entry} (he : e ∈ held.settled) :
    e.IsResolved := by
  cases held with
  | nothing => cases he
  | fill c n replaced mergeable =>
    obtain rfl := List.mem_singleton.mp he
    refine Entry.isResolved_of_missed rfl fun d hd hb => ?_
    cases hd
    rw [eq_of_beq mergeable] at hb
    cases hb
  | opened c n attached deadline bears missing =>
    obtain rfl := List.mem_singleton.mp he
    constructor
    · rintro d k hd - hk
      cases hd
      exact Or.inr ⟨hk, fun s hs heq => missing s hs (heq ▸ hk)⟩
    · exact fun k hk => ⟨c, rfl, bears, hk⟩

/-- What is taken up and settled at once is resolved, as it awaits nothing. -/
theorem Taken.isResolved {τ : Type} [Add τ] {window : ActionCandidate → τ} {now : τ} {e f : Entry}
    {es : List Entry} {held : Held τ} (h : Taken window now e es held) (hf : f ∈ es) :
    f.IsResolved := by
  rcases h with _ | _ | ⟨-, hdeaf⟩ | _
  · cases hf
  · cases hf
  · obtain rfl := List.mem_singleton.mp hf
    refine Entry.isResolved_of_missed rfl fun d hd hb => ?_
    cases hd
    exact absurd (hdeaf.symm.trans hb) Bool.false_ne_true
  · obtain rfl := List.mem_singleton.mp hf
    exact Entry.isResolved_of_missed rfl fun c hc => by cases hc

namespace Ledger

variable {τ : Type} [Add τ] [LE τ] [DecidableLE τ] {window : ActionCandidate → τ} {now : τ}
  {l l' : Ledger τ}

/-- **Every deed settles what is resolved.** -/
theorem Deed.isResolved (h : Deed window now l l') (hl : ∀ e ∈ l.settled, e.IsResolved) :
    ∀ e ∈ l'.settled, e.IsResolved := by
  cases h with
  | arrive | merge | receive => exact hl
  | @expire _ _ _ c n attached deadline bears missing due =>
    intro e he
    rcases List.mem_append.mp he with he | he
    · exact hl e he
    · have hheld : e ∈ (Held.opened c n attached deadline bears missing).settled := he
      exact Held.isResolved_settled hheld
  | take free other taken =>
    intro e he
    rcases List.mem_append.mp he with he | he
    · exact hl e he
    · rcases List.mem_append.mp he with he | he
      · exact Held.isResolved_settled he
      · exact taken.isResolved he
  | @fulfil _ _ _ _ c n k attached _ s _ _ received awaited =>
    intro e he
    rcases List.mem_append.mp he with he | he
    · exact hl e he
    · obtain rfl := List.mem_singleton.mp he
      constructor
      · rintro d j hd - hj
        cases hd
        exact Or.inl ⟨rfl, (s, k), by simp [Entry.attached],
          Option.some.inj (awaited.symm.trans hj)⟩
      · rintro j hj
        cases hj

omit [Add τ] [LE τ] [DecidableLE τ] in
theorem isResolved_outcome (hl : ∀ e ∈ l.settled, e.IsResolved)
    (hfresh : ∀ e ∈ l.waiting, e.IsFresh) {e : Entry} (he : e ∈ l.outcome) : e.IsResolved := by
  rcases List.mem_append.mp he with he | he
  · exact hl e he
  rcases List.mem_append.mp he with he | he
  · exact Held.isResolved_settled he
  · obtain ⟨f, hf, rfl⟩ := List.mem_map.mp he
    exact (hfresh f hf).isResolved_cut

/-! ### The pending action -/

/-- **An action is pending** behind what was settled: it is held, with some signals, or it is what
was settled next. -/
def IsPending (settled : List Entry) (c : ActionCandidate) (n : ℕ)
    (attached : List (SignalCandidate × ℕ)) (deadline : τ) (l : Ledger τ) : Prop :=
  (l.settled = settled ∧ ∃ more bears missing,
      l.held = .opened c n (attached ++ more) deadline bears missing) ∨
    ∃ more missed rest, l.settled = settled ++ .action c n [] (attached ++ more) missed :: rest

/-- **As long as an action awaits a signal, nothing else is settled.** -/
theorem Deed.isPending {settled : List Entry} {c : ActionCandidate} {n : ℕ}
    {attached : List (SignalCandidate × ℕ)} {deadline : τ} (hc : c.awaiting.isSome)
    (h : Deed window now l l') (hl : l.IsPending settled c n attached deadline) :
    l'.IsPending settled c n attached deadline := by
  rcases hl with ⟨hsettled, more, bears, missing, hheld⟩ | ⟨more, missed, rest, hsettled⟩
  · cases h with
    | arrive => exact Or.inl ⟨hsettled, more, bears, missing, hheld⟩
    | merge => cases hheld
    | expire =>
      cases hheld
      cases hsettled
      exact Or.inr ⟨more, c.awaiting, [], rfl⟩
    | take free =>
      subst hheld
      exact absurd free (by simpa [Held.awaiting, Option.isSome_iff_ne_none] using hc)
    | @receive _ _ _ _ _ _ k _ _ s _ _ _ missing' =>
      cases hheld
      rw [List.append_assoc] at missing'
      exact Or.inl ⟨hsettled, more ++ [(s, k)], bears, missing', by simp⟩
    | @fulfil _ _ _ _ _ _ k _ _ s =>
      cases hheld
      cases hsettled
      exact Or.inr ⟨more ++ [(s, k)], none, [], by simp⟩
  · obtain ⟨further, hfurther⟩ := h.settled
    exact Or.inr ⟨more, missed, rest ++ further, by simp [hfurther, hsettled]⟩

omit [Add τ] [LE τ] [DecidableLE τ] in
/-- What a pending action comes to. -/
theorem IsPending.outcome {settled : List Entry} {c : ActionCandidate} {n : ℕ}
    {attached : List (SignalCandidate × ℕ)} {deadline : τ}
    (h : l.IsPending settled c n attached deadline) :
    ∃ more missed rest, l.outcome =
      settled ++ .action c n [] (attached ++ more) missed :: rest := by
  rcases h with ⟨hsettled, more, bears, missing, hheld⟩ | ⟨more, missed, rest, hsettled⟩
  · exact ⟨more, c.awaiting, l.waiting.map Entry.cut, by simp [Ledger.outcome, hsettled, hheld,
      Held.settled]⟩
  · exact ⟨more, missed, rest ++ (l.held.settled ++ l.waiting.map Entry.cut),
      by simp [Ledger.outcome, hsettled]⟩

/-! ### Missing a signal on time -/

/-- **Since when an action is open**, if `i` entries were settled since the ledger was `start`: it
was open at the start, and nothing was settled; or it waited then, or is one of those that have
arrived, and was opened now. -/
def OpenSince (window : ActionCandidate → τ) (now : τ) (start : Ledger τ) (arrived : List Candidate)
    (i : ℕ) (c : ActionCandidate) (deadline : τ) : Prop :=
  (i = 0 ∧ ∃ o, start.held.opened? = some o ∧ o.deadline = deadline) ∨
    ((start.held.awaiting.isSome → 0 < i) ∧
      Candidate.action c ∈ start.waiting.map Entry.candidate ++ arrived ∧ deadline = now + window c)

/-- **An entry has missed its signal on time**, as the `i`-th that was settled since the ledger was
`start`: its action was open until now. -/
def IsDue (window : ActionCandidate → τ) (now : τ) (start : Ledger τ) (arrived : List Candidate)
    (i : ℕ) (e : Entry) : Prop :=
  ∃ c n attached deadline, e = .action c n [] attached c.awaiting ∧ deadline ≤ now ∧
    start.OpenSince window now arrived i c deadline

/-- **Signals are missed on time**, since the ledger was `start`: `further` was settled and
`arrived` has arrived, and only an action whose deadline has come has missed its signal. -/
structure IsPunctual (window : ActionCandidate → τ) (now : τ) (start : Ledger τ)
    (further : List Entry) (arrived : List Candidate) (l : Ledger τ) : Prop where
  settled : l.settled = start.settled ++ further
  fed : l.fed = start.fed ++ arrived
  waiting : ∀ e ∈ l.waiting, e.candidate ∈ start.waiting.map Entry.candidate ++ arrived
  /-- What is awaited at the start is awaited until something is settled. -/
  awaiting : further = [] → start.held.awaiting.isSome → l.held.awaiting.isSome
  opened : ∀ c n attached deadline bears missing,
    l.held = .opened c n attached deadline bears missing → c.awaiting.isSome →
      start.OpenSince window now arrived further.length c deadline
  missed : ∀ i e, further[i]? = some e → e.missed.isSome → start.IsDue window now arrived i e

omit [LE τ] [DecidableLE τ] in
theorem OpenSince.push {start : Ledger τ} {arrived : List Candidate} {i : ℕ} {c : ActionCandidate}
    {deadline : τ} (h : start.OpenSince window now arrived i c deadline) (x : Candidate) :
    start.OpenSince window now (arrived ++ [x]) i c deadline := by
  rcases h with hheld | ⟨hlater, hmem, hdeadline⟩
  · exact Or.inl hheld
  · refine Or.inr ⟨hlater, ?_, hdeadline⟩
    rw [← List.append_assoc]
    exact List.mem_append_left _ hmem

omit [DecidableLE τ] in
theorem IsDue.push {start : Ledger τ} {arrived : List Candidate} {i : ℕ} {e : Entry}
    (h : start.IsDue window now arrived i e) (x : Candidate) :
    start.IsDue window now (arrived ++ [x]) i e := by
  obtain ⟨c, n, attached, deadline, he, hdue, hsince⟩ := h
  exact ⟨c, n, attached, deadline, he, hdue, hsince.push x⟩

namespace IsPunctual

variable {start : Ledger τ} {further es : List Entry} {arrived : List Candidate}

omit [DecidableLE τ] in
/-- What was missed before stays so, if what is settled behind it has missed nothing, or only what
was missed on time. -/
theorem missed_append (h : start.IsPunctual window now further arrived l)
    (hes : ∀ j e, es[j]? = some e → e.missed.isSome →
      start.IsDue window now arrived (further.length + j) e) :
    ∀ i e, (further ++ es)[i]? = some e → e.missed.isSome → start.IsDue window now arrived i e := by
  intro i e hi hm
  rcases Nat.lt_or_ge i further.length with hlt | hge
  · rw [List.getElem?_append_left hlt] at hi
    exact h.missed i e hi hm
  · rw [List.getElem?_append_right hge] at hi
    simpa [Nat.add_sub_cancel' hge] using hes (i - further.length) e hi hm

omit [DecidableLE τ] in
/-- A ledger is punctual to itself. -/
theorem refl (l : Ledger τ) : l.IsPunctual window now [] [] l where
  settled := by simp
  fed := by simp
  waiting e he := by simpa using ⟨e, he, rfl⟩
  awaiting _ h := h
  opened c n attached deadline bears missing hheld _ := Or.inl ⟨rfl, _, by rw [hheld]; rfl, rfl⟩
  missed i e hi := by simp at hi

end IsPunctual

/-- **Every deed of this time keeps the signals missed on time.** -/
theorem Deed.isPunctual {start : Ledger τ} (h : Deed window now l l')
    (hl : ∃ further arrived, start.IsPunctual window now further arrived l) :
    ∃ further arrived, start.IsPunctual window now further arrived l' := by
  obtain ⟨further, arrived, hl⟩ := hl
  cases h with
  | @arrive _ _ _ _ e =>
    refine ⟨further, arrived ++ [e.candidate], { hl with
      fed := (congrArg (· ++ _) hl.fed).trans (List.append_assoc _ _ _)
      waiting := fun f hf => ?_
      opened := fun c n attached deadline bears missing hheld hc =>
        (hl.opened c n attached deadline bears missing hheld hc).push _
      missed := fun i f hi hm => (hl.missed i f hi hm).push _ }⟩
    rw [← List.append_assoc]
    rcases List.mem_append.mp hf with hf | hf
    · exact List.mem_append_left _ (hl.waiting f hf)
    · rw [List.mem_singleton.mp hf]
      exact List.mem_append_right _ (List.mem_singleton_self _)
  | merge =>
    exact ⟨further, arrived, { hl with
      waiting := fun f hf => hl.waiting f (List.mem_cons_of_mem _ hf)
      opened := fun _ _ _ _ _ _ hheld => by cases hheld }⟩
  | receive =>
    refine ⟨further, arrived, { hl with
      waiting := fun f hf => hl.waiting f (((List.sublist_cons_self _ _).append_left _).mem hf)
      opened := fun c n attached deadline bears missing hheld hc => ?_ }⟩
    cases hheld
    exact hl.opened _ _ _ _ _ _ rfl hc
  | @expire _ _ _ c n attached deadline bears missing due =>
    refine ⟨further ++ [.action c n [] attached c.awaiting], arrived, { hl with
      settled := (congrArg (· ++ _) hl.settled).trans (List.append_assoc _ _ _)
      awaiting := fun hnil => by simp at hnil
      opened := fun _ _ _ _ _ _ hheld => by cases hheld
      missed := hl.missed_append fun j e hj hm => ?_ }⟩
    obtain ⟨rfl, rfl⟩ : j = 0 ∧ _ = e := by simpa [List.getElem?_singleton] using hj
    exact ⟨c, n, attached, deadline, rfl, due, hl.opened _ _ _ _ _ _ rfl hm⟩
  | @take _ _ waiting es e held next free other taken =>
    -- what was awaited at the start was settled before anything was taken up
    have hlater (hstart : start.held.awaiting.isSome) : 0 < further.length := by
      refine List.length_pos_of_ne_nil fun hnil => ?_
      simpa [free] using hl.awaiting hnil hstart
    refine ⟨further ++ (held.settled ++ es), arrived, { hl with
      settled := (congrArg (· ++ _) hl.settled).trans (List.append_assoc _ _ _)
      waiting := fun f hf => hl.waiting f (List.mem_cons_of_mem _ hf)
      awaiting := fun hnil hstart => ?_
      opened := fun c n attached deadline bears missing hheld hc => ?_
      missed := hl.missed_append fun j f hj hm => ?_ }⟩
    · have hpos := hlater hstart
      rw [(List.append_eq_nil_iff.mp hnil).1] at hpos
      exact absurd hpos (Nat.lt_irrefl 0)
    · subst hheld
      cases taken with
      | opened =>
        refine Or.inr ⟨fun hstart => ?_, hl.waiting _ List.mem_cons_self, rfl⟩
        rw [List.length_append]
        exact Nat.add_pos_left (hlater hstart) _
    · rcases List.mem_append.mp (List.mem_of_getElem? hj) with hf | hf
      · simp [Held.missed_of_free free hf] at hm
      · simp [taken.missed hf] at hm
  | @fulfil _ _ _ _ c n k attached _ s =>
    refine ⟨further ++ [.action c n [] (attached ++ [(s, k)]) none], arrived, { hl with
      settled := (congrArg (· ++ _) hl.settled).trans (List.append_assoc _ _ _)
      waiting := fun f hf => hl.waiting f (((List.sublist_cons_self _ _).append_left _).mem hf)
      awaiting := fun hnil => by simp at hnil
      opened := fun _ _ _ _ _ _ hheld => by cases hheld
      missed := hl.missed_append fun j e hj hm => ?_ }⟩
    obtain ⟨rfl, rfl⟩ : j = 0 ∧ _ = e := by simpa [List.getElem?_singleton] using hj
    cases hm

end Ledger

namespace Coalescer

variable {τ : Type} [Add τ] [LE τ] [DecidableLE τ] [LT τ] [DecidableLT τ]

omit [Add τ] [LE τ] [DecidableLE τ] [LT τ] [DecidableLT τ] in
/-- **An entry of an open action**: the same action, with the signals that it received later. -/
inductive IsEntryOf : OpenAction τ → Entry → Prop
  | intro {c : ActionCandidate} {n : ℕ} {attached more : List (SignalCandidate × ℕ)} {deadline : τ}
      {missed : Option SignalKind} :
      IsEntryOf ⟨Entry.receiving c attached, deadline, c.awaiting⟩
        (.action c n [] (attached ++ more) missed)

/-- **A call opens an action**, whose entry is the `i`-th that it settles: the action waited in the
backlog or comes with the call, it is not the one that was open and awaited a signal, and it stays
open for the timeout. -/
structure Opens (m : Coalescer τ) (c : Call τ) (i : ℕ) (o : OpenAction τ) (e : Entry) : Prop where
  entry : IsEntryOf o e
  candidate : e.candidate ∈ m.backlog ++ c.candidate?.toList
  later : m.isAwaiting → 0 < i
  deadline : o.deadline = c.now + m.syncTimeout

/-- **What a call does to an action that awaits a signal.** The call is made of `m`, and `entries`
are those of what it and all that comes later commits. -/
structure Awaits (m : Coalescer τ) (c : Call τ) (entries : List Entry) : Prop where
  /-- An action that misses its signal in this call was open and is the first to be committed, or it
  was opened in this call; and its deadline has come. -/
  due : ∀ i < (m.perform c).2.committed.length, ∀ e, entries[i]? = some e → e.warning.isSome →
    ∃ o, (i = 0 ∧ m.opened = some o ∨ m.Opens c i o e) ∧ o.deadline ≤ c.now
  /-- The action that is open and awaits a signal is the next to be committed. -/
  next : ∀ o, m.opened = some o → o.awaiting.isSome →
    ∃ e, entries.head? = some e ∧ IsEntryOf o e
  /-- Until it is committed it stays open, and may receive signals. -/
  stays : ∀ o, m.opened = some o → o.awaiting.isSome → (m.perform c).2.committed = [] →
    ∃ more, (m.perform c).1.opened =
      some { o with action := { o.action with signals := o.action.signals ++ more } }

variable {m : Coalescer τ} {l l₁ l' : Ledger τ} {c : Call τ} {rest : List (Call τ)}

omit [Add τ] [LE τ] [DecidableLE τ] [LT τ] [DecidableLT τ] in
/-- What is open and awaits a signal is pending. -/
theorem exists_isPending (hm : m.Shows l) {o : OpenAction τ} (ho : m.opened = some o)
    (hawaiting : o.awaiting.isSome) :
    ∃ (a : ActionCandidate) (n : ℕ) (attached : List (SignalCandidate × ℕ)), a.awaiting.isSome ∧
      o = ⟨Entry.receiving a attached, o.deadline, a.awaiting⟩ ∧
      l.IsPending l.settled a n attached o.deadline := by
  obtain ⟨a, n, attached, bears, missing, hheld, hopen⟩ := Held.of_opened? (hm.opened.symm.trans ho)
  rw [hopen] at hawaiting
  refine ⟨a, n, attached, hawaiting, hopen, Or.inl ⟨rfl, [], bears, ?_, ?_⟩⟩
  · simpa using missing
  · simp [hheld]

/-- **Every call of a run waits for what is awaited.** -/
theorem Course.awaits (hm : m.Shows l)
    (hfirst : Reaches m.window c.now l c.candidate?.toList (m.perform c) l₁)
    (hrest : Course (m.perform c).1 l₁ rest l') {entries : List Entry}
    (hentries : l'.outcome = l.settled ++ entries) : m.Awaits c entries := by
  obtain ⟨further, hsettled, hyields⟩ := hfirst.yields
  obtain ⟨later, hlater, -⟩ := hrest.yields
  have hcommitted : (m.perform c).2.committed = further.map Entry.committed := by
    rw [hyields]
    rfl
  obtain ⟨tail, rfl⟩ : ∃ tail, entries = further ++ tail := by
    refine ⟨later ++ (l'.held.settled ++ l'.waiting.map Entry.cut), ?_⟩
    refine List.append_cancel_left (hentries.symm.trans ?_)
    simp [Ledger.outcome, hlater, hsettled]
  refine ⟨fun i hi e he hwarned => ?_, fun o ho hawaiting => ?_, fun o ho hawaiting hnone => ?_⟩
  · -- what was missed in this call was missed on time
    obtain ⟨same, arrived, hpunctual⟩ := hfirst.deeds.keep
      (fun _ _ hdeed => hdeed.isPunctual) ⟨[], [], .refl l⟩
    obtain rfl : further = same := List.append_cancel_left (hsettled.symm.trans hpunctual.settled)
    obtain rfl : c.candidate?.toList = arrived :=
      List.append_cancel_left (hfirst.fed.symm.trans hpunctual.fed)
    have hi' : i < further.length := by simpa [hcommitted] using hi
    rw [List.getElem?_append_left hi'] at he
    obtain ⟨a, n, attached, deadline, rfl, hdue, hsince⟩ :=
      hpunctual.missed i e he (e.isSome_warning ▸ hwarned)
    rcases hsince with ⟨hzero, o, ho, rfl⟩ | ⟨hlater, hmem, rfl⟩
    · exact ⟨o, Or.inl ⟨hzero, hm.opened.trans ho⟩, hdue⟩
    · have ha : a.awaiting.isSome := by
        simpa [Entry.isSome_warning, Entry.missed] using hwarned
      refine ⟨⟨Entry.receiving a [], _, a.awaiting⟩,
        Or.inr ⟨.intro, by rwa [hm.backlog], by rwa [hm.isAwaiting], ?_⟩, hdue⟩
      rw [window, if_pos ha]
  · obtain ⟨a, n, attached, ha, hopen, hpending⟩ := exists_isPending hm ho hawaiting
    have hend := hrest.keep (fun _ _ _ _ hdeed => hdeed.isPending ha)
      (hfirst.deeds.keep (fun _ _ hdeed => hdeed.isPending ha) hpending)
    obtain ⟨more, missed, after, houtcome⟩ := hend.outcome
    refine ⟨.action a n [] (attached ++ more) missed, ?_, ?_⟩
    · rw [List.append_cancel_left (hentries.symm.trans houtcome)]
      rfl
    · rw [hopen]
      exact .intro
  · obtain ⟨a, n, attached, ha, hopen, hpending⟩ := exists_isPending hm ho hawaiting
    have hend := hfirst.deeds.keep (fun _ _ hdeed => hdeed.isPending ha) hpending
    obtain rfl : further = [] := by simpa [hcommitted] using hnone
    rcases hend with ⟨-, more, bears, missing, hheld⟩ | ⟨more, missed, after, hnext⟩
    · refine ⟨more.map (·.1.signal), ?_⟩
      rw [hfirst.shows.opened, hheld, hopen]
      simp [Held.opened?, Entry.receiving]
    · simp [hsettled] at hnext

/-- **Awaited signals are received, or missed on time, with a warning for each.** In every run, once
all is settled,

* a signal-bearing action that awaited a signal has it, or is incomplete and warned of; and no other
  warning is given;
* in every call, it misses the signal only when its deadline has come (else everything is settled);
* as long as it is open, no call commits any other action. -/
theorem runToEnd_awaited (signalWindow syncTimeout start : τ) (calls : List (Call τ)) :
    let m := fresh signalWindow syncTimeout start
    ∃ entries, Account (calls.filterMap Call.candidate?) entries ∧
      m.runToEnd calls = .ofEntries entries ∧
      (∀ e ∈ entries, ∀ c k, e.candidate = .action c → c.action.kind.bearsSignals →
        c.awaiting = some k → c.action.signals = [] → c.action.incompleteSignals = [] →
          ((e.committed.signal? k).isSome ∧ e.committed.incompleteSignals = [] ∧
            e.warning = none) ∨
          (e.committed.signal? k = none ∧ e.committed.incompleteSignals = [k] ∧
            e.warning = some ⟨k, c.action.page, c.action.kind⟩)) ∧
      (∀ e ∈ entries, ∀ w, e.warning = some w →
        ∃ c, e.candidate = .action c ∧ c.action.kind.bearsSignals ∧ c.awaiting = some w.awaited) ∧
      ∀ before c after, calls = before ++ c :: after →
        (m.run before).1.Awaits c (entries.drop (m.run before).2.committed.length) := by
  intro m
  obtain ⟨l, hl⟩ := exists_course (shows_fresh signalWindow syncTimeout start) isQuiet_blank calls
  have hresolved : ∀ e ∈ l.outcome, e.IsResolved := fun e he =>
    Ledger.isResolved_outcome (hl.keep (fun _ _ _ _ hdeed => hdeed.isResolved)
      (fun _ he => absurd he List.not_mem_nil)) hl.shows_end.1.fresh he
  refine ⟨l.outcome, hl.account_outcome, hl.runToEnd, fun e he c k hc hb hk hs hi =>
    (hresolved e he).committed hc hb hk hs hi, fun e he => (hresolved e he).warned,
    fun before c after hcalls => ?_⟩
  subst hcalls
  obtain ⟨l₁, hbefore, hafter⟩ := hl.split
  obtain ⟨earlier, hearlier, hyields⟩ := hbefore.yields
  obtain rfl : l₁.settled = earlier := hearlier
  cases hafter with
  | cons hshows _ hfirst hrest =>
    obtain ⟨first, hsettled, -⟩ := hfirst.yields
    obtain ⟨later, hlater, -⟩ := hrest.yields
    refine hrest.awaits hshows hfirst ?_
    have hlength : (m.run before).2.committed.length = l₁.settled.length := by
      rw [hyields]
      simp [Yield.ofEntries]
    rw [hlength, Ledger.outcome, hlater, hsettled]
    simp

end Coalescer

end Scribe
