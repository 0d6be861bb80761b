import Scribe.Proofs.Coalescer.Ledger
import Mathlib.Data.List.Chain

/-!
# Settled in the end, or before

What waits behind an open action can be settled in two ways. In the end it is settled one by one.
Once the action is due it is worked off, and then two that follow each other may come together: a
fill gives way to the next one of its key, and a signal goes to the action before it. What is left
then is settled in the end.

The two ways agree exactly if no two neighbours come together, of those that are worked off;
otherwise the second commits fewer actions (`Scribe.Coalescer.tick_flush`). Whether two come
together is told of them alone (`Scribe.Coalescer.unites`), since nothing is held while the backlog
is worked off but what the last one has left (`Scribe.Taken.takesIn_eq`). And all of it is worked
off, unless an action comes in between that goes on awaiting a signal
(`Scribe.Coalescer.workedOff`).
-/

namespace Scribe

/-! ### Yields of two ways -/

/-- **One yield is another if `P` holds**, and otherwise it commits fewer actions. -/
structure Yield.SameIff (P : Prop) (y z : Yield) : Prop where
  eq : P → y = z
  less : ¬P → y.committed.length < z.committed.length

namespace Yield.SameIff

variable {P Q : Prop} {y z : Yield}

theorem congr (h : SameIff P y z) (hQ : Q ↔ P) : SameIff Q y z :=
  ⟨fun hq => h.eq (hQ.mp hq), fun hq => h.less (mt hQ.mpr hq)⟩

theorem append (h : SameIff P y z) (w : Yield) : SameIff P (w ++ y) (w ++ z) where
  eq hP := by rw [h.eq hP]
  less hP := by
    change (w.committed ++ y.committed).length < (w.committed ++ z.committed).length
    have := h.less hP
    simp only [List.length_append]
    omega

theorem length_le (h : SameIff P y z) : y.committed.length ≤ z.committed.length := by
  by_cases hP : P
  · rw [h.eq hP]
  · exact (h.less hP).le

/-- What they commit is the same only if they are. -/
theorem committed_eq_iff (h : SameIff P y z) : y.committed = z.committed ↔ P := by
  constructor
  · intro heq
    by_contra hP
    exact (h.less hP).ne (congrArg List.length heq)
  · intro hP
    rw [h.eq hP]

end Yield.SameIff

/-! ### What comes together -/

variable {τ : Type} [Add τ] [LE τ] [DecidableLE τ]

/-- Whether a candidate is an action that is opened and **goes on awaiting** its signal, once it is
taken up. -/
def Candidate.outlasts (window : ActionCandidate → τ) (now : τ) : Candidate → Bool
  | action c =>
    c.action.kind.bearsSignals && c.awaiting.isSome && !decide (now + window c ≤ now)
  | _ => false

namespace Coalescer

/-- Whether two candidates **come together** when they are worked off: fills of one key, or an
action that awaits no signal and a signal that it receives. -/
def unites (window : ActionCandidate → τ) (now : τ) : Candidate → Candidate → Bool
  | .action c, .action d => c.isMergeable && d.isMergeable && c.key == d.key
  | .action c, .signal s => c.action.kind.bearsSignals && c.awaiting.isNone &&
      receives ⟨c.action, now + window c, c.awaiting⟩ s now
  | _, _ => false

/-- **What is worked off** of a backlog at a time: all, or up to an action that goes on awaiting a
signal. -/
def workedOff (window : ActionCandidate → τ) (now : τ) : List Candidate → List Candidate
  | [] => []
  | c :: rest => if c.outlasts window now then [c] else c :: workedOff window now rest

end Coalescer

open Coalescer

variable {window : ActionCandidate → τ} {now : τ}

namespace Taken

variable {e : Entry} {es : List Entry} {held : Held τ}

/-- **What a candidate leaves held takes in what it comes together with**, unless it awaits a
signal. -/
theorem takesIn_eq (h : Taken window now e es held) (hfree : held.awaiting = none) (d : Candidate) :
    held.takesIn now d = unites window now e.candidate d := by
  cases h with
  | fill mergeable =>
    have hdeaf := mt ActionCandidate.not_isMergeable (not_not.mpr mergeable)
    cases d with
    | action d =>
      simp [Held.takesIn, Held.fill?, unites, Entry.candidate, mergeable]
    | signal s =>
      simp [Held.takesIn, Held.opened?, unites, Entry.candidate, hdeaf]
    | foreign => rfl
  | opened bears =>
    have hsingle := ActionCandidate.not_isMergeable bears
    have hnone := hfree
    rw [Held.awaiting] at hnone
    cases d with
    | action d => simp [Held.takesIn, Held.fill?, unites, Entry.candidate, hsingle]
    | signal s => simp [Held.takesIn, Held.opened?, unites, Entry.candidate, bears, hnone]
    | foreign => rfl
  | action single deaf =>
    cases d <;> simp [Held.takesIn, Held.fill?, Held.opened?, unites, Entry.candidate, single, deaf]
  | signal =>
    cases d <;> simp [Held.takesIn, Held.fill?, Held.opened?, unites, Entry.candidate]

/-- An action that awaits a signal comes together with nothing. -/
theorem unites_of_awaiting (h : Taken window now e es held) (hheld : held.awaiting.isSome)
    (d : Candidate) : unites window now e.candidate d = false := by
  cases h with
  | opened bears =>
    have hsingle := ActionCandidate.not_isMergeable bears
    rw [Held.awaiting] at hheld
    cases d with
    | action d => simp [unites, Entry.candidate, hsingle]
    | signal s => simp [unites, Entry.candidate, Option.isNone_eq_false_iff.mpr hheld]
    | foreign => rfl
  | _ => cases hheld

/-- A candidate goes on awaiting if what it leaves held does. -/
theorem outlasts_eq (h : Taken window now e es held) : e.candidate.outlasts window now =
    held.opened?.any fun o => o.awaiting.isSome && !decide (o.deadline ≤ now) := by
  cases h with
  | fill mergeable =>
    have hdeaf := mt ActionCandidate.not_isMergeable (not_not.mpr mergeable)
    simp [Candidate.outlasts, Entry.candidate, Held.opened?, hdeaf]
  | opened bears => simp [Candidate.outlasts, Entry.candidate, Held.opened?, bears]
  | action single deaf => simp [Candidate.outlasts, Entry.candidate, Held.opened?, deaf]
  | signal => rfl

end Taken

namespace Coalescer

/-! ### Backlogs of which nothing comes together -/

theorem head?_workedOff (window : ActionCandidate → τ) (now : τ) (backlog : List Candidate) :
    (workedOff window now backlog).head? = backlog.head? := by
  cases backlog with
  | nil => rfl
  | cons c rest =>
    rw [workedOff]
    split <;> rfl

theorem workedOff_isPrefix (window : ActionCandidate → τ) (now : τ) (backlog : List Candidate) :
    workedOff window now backlog <+: backlog := by
  induction backlog with
  | nil => exact List.prefix_rfl
  | cons c rest ih =>
    rw [workedOff]
    split
    · exact List.prefix_append [c] rest
    · exact List.prefix_cons_inj c |>.mpr ih

/-- **Nothing comes together** when a backlog is worked off behind what is held. -/
structure IsSeparate (window : ActionCandidate → τ) (now : τ) (held : Held τ)
    (backlog : List Candidate) : Prop where
  first : ∀ c ∈ backlog.head?, held.takesIn now c = false
  others : (workedOff window now backlog).IsChain fun c d => unites window now c d = false

omit [Add τ] in
theorem takesIn_nothing (now : τ) (c : Candidate) :
    (Held.nothing : Held τ).takesIn now c = false := by
  cases c <;> simp [Held.takesIn, Held.fill?, Held.opened?]

variable {held next : Held τ} {c : Candidate} {backlog : List Candidate}

theorem isSeparate_nothing_iff : IsSeparate window now .nothing backlog ↔
    (workedOff window now backlog).IsChain fun c d => unites window now c d = false :=
  ⟨IsSeparate.others, fun h => ⟨fun c _ => takesIn_nothing now c, h⟩⟩

theorem isSeparate_cons_iff (hstays : c.outlasts window now = false)
    (hnext : ∀ d, next.takesIn now d = unites window now c d) :
    IsSeparate window now held (c :: backlog) ↔
      held.takesIn now c = false ∧ IsSeparate window now next backlog := by
  have hworked : workedOff window now (c :: backlog) = c :: workedOff window now backlog := by
    rw [workedOff, if_neg (Bool.eq_false_iff.mp hstays)]
  constructor
  · rintro ⟨hfirst, hothers⟩
    rw [hworked, List.isChain_cons, head?_workedOff] at hothers
    exact ⟨hfirst c rfl, fun d hd => (hnext d).trans (hothers.1 d hd), hothers.2⟩
  · rintro ⟨hfirst, hsecond, hothers⟩
    refine ⟨fun d hd => by rwa [← Option.some.inj hd], ?_⟩
    rw [hworked, List.isChain_cons, head?_workedOff]
    exact ⟨fun d hd => (hnext d).symm.trans (hsecond d hd), hothers⟩

/-- Nothing is worked off behind an action that goes on awaiting a signal. -/
theorem isSeparate_of_outlasts (hstays : c.outlasts window now = true)
    (hc : held.takesIn now c = false) : IsSeparate window now held (c :: backlog) := by
  refine ⟨fun d hd => by rwa [← Option.some.inj hd], ?_⟩
  rw [workedOff, if_pos hstays]
  exact .singleton c

/-! ### What is worked off before the end -/

/-- **What a result comes to**, if what is due is settled, and then everything. -/
def late (now : τ) (r : Coalescer τ × Yield) : Yield :=
  r.2 ++ ((expire now r.1).2 ++ (expire now r.1).1.flush.2)

variable {m : Coalescer τ} {l : Ledger τ} {o : OpenAction τ}

theorem late_of_not_due (h : ∀ o, m.opened = some o → ¬o.deadline ≤ now) :
    late now (m, {}) = m.flush.2 := by
  rw [late, expire_of_not_due h]
  exact (Yield.ofEntries_nil_append _).trans (Yield.ofEntries_nil_append _)

omit [Add τ] [LE τ] [DecidableLE τ] in
/-- What is left once the open action is taken away. -/
theorem Shows.not_opened (h : m.Shows l) (ho : m.opened = some o) (fed : List Candidate)
    (settled : List Entry) :
    ({ m with opened := none } : Coalescer τ).Shows ⟨fed, settled, .nothing, l.waiting⟩ := by
  obtain ⟨c, n, attached, bears, missing, hheld, -⟩ := Held.of_opened? (h.opened.symm.trans ho)
  exact ⟨by rw [h.fill, hheld]; rfl, rfl, h.backlog, h.fresh⟩

theorem late_of_due (h : m.Shows l) (ho : m.opened = some o) (hdue : o.deadline ≤ now) :
    late now (m, {}) = o.settle ++ late now ({ m with opened := none }.drain now) := by
  obtain ⟨_, hreaches, -⟩ := drainList_reaches (h.not_opened ho l.fed l.settled) rfl rfl now
  rw [late, expire_of_due ho hdue hreaches.refused, late, Yield.append_assoc, Yield.append_assoc,
    Yield.append_assoc]
  exact Yield.ofEntries_nil_append _

/-- In the end the open action is settled first. -/
theorem flush_of_opened (h : m.Shows l) (ho : m.opened = some o) :
    m.flush.2 = o.settle ++ ({ m with opened := none } : Coalescer τ).flush.2 := by
  obtain ⟨c, n, attached, bears, missing, hheld, hopen⟩ :=
    Held.of_opened? (h.opened.symm.trans ho)
  rw [flush_yields h, flush_yields (h.not_opened ho l.fed l.settled), hopen, settle_opened, hheld,
    ← Yield.ofEntries_append]
  rfl

/-- An action that awaits a signal keeps the backlog back. -/
theorem drain_of_awaiting (h : m.isAwaiting = true) (now : τ) : m.drain now = (m, {}) := by
  rw [drain]
  cases hb : m.backlog with
  | nil => rw [drainList, ← hb]
  | cons c rest => rw [drainList, if_pos h, ← hb]

/-- The first that waits is worked off, and then the others. -/
theorem late_drain_cons (hfree : m.isAwaiting = false) {rest : List Candidate}
    (hb : m.backlog = c :: rest) (now : τ)
    (hr : ({ m with backlog := rest }.absorb c now).2.refused = false) :
    late now (m.drain now) = ({ m with backlog := rest }.absorb c now).2 ++
      late now (({ m with backlog := rest }.absorb c now).1.drain now) := by
  have hbacklog : ({ m with backlog := rest }.absorb c now).1.backlog = rest :=
    absorb_backlog (m := { m with backlog := rest }) hfree c now
  rw [drain, hb, drainList, if_neg (Bool.eq_false_iff.mp hfree)]
  dsimp only
  rw [if_neg (Bool.eq_false_iff.mp hr), drain, hbacklog, late, late, Yield.append_assoc]

/-- If nothing waits, it makes no difference when the open action is settled. -/
theorem late_of_none_waiting (h : m.Shows l) (hnone : l.waiting = []) :
    late now (m, {}) = m.flush.2 := by
  by_cases hdue : ∃ o, m.opened = some o ∧ o.deadline ≤ now
  · obtain ⟨o, ho, hle⟩ := hdue
    have hdrain : ({ m with opened := none } : Coalescer τ).drain now =
        ({ m with opened := none }, {}) := by
      rw [drain]
      have hb : m.backlog = [] := by rw [h.backlog, hnone]; rfl
      simp only [hb, drainList]
    rw [late_of_due h ho hle, hdrain, late_of_not_due (fun _ h => by cases h),
      ← flush_of_opened h ho]
  · exact late_of_not_due fun o ho hle => hdue ⟨o, ho, hle⟩

/-- **What follows a candidate that was taken up**: the backlog is worked off further, or waits
behind it. -/
theorem late_drain_taken {fed : List Candidate} {settled waiting es : List Entry} {e : Entry}
    (htaken : Taken window now e es next) (h : m.Shows ⟨fed, settled, next, waiting⟩)
    (hw : m.window = window) (hother : held.takesIn now e.candidate = false)
    (ih : ∀ (n : Coalescer τ) (settled : List Entry) (held : Held τ), n.window = window →
      n.Shows ⟨fed, settled, held, waiting⟩ → held.awaiting = none →
      Yield.SameIff (IsSeparate window now held n.backlog) (late now (n.drain now)) n.flush.2) :
    Yield.SameIff (IsSeparate window now held (e.candidate :: m.backlog))
      (late now (m.drain now)) m.flush.2 := by
  cases hnext : next.awaiting with
  | none =>
    have hstays : e.candidate.outlasts window now = false := by
      rw [htaken.outlasts_eq]
      cases hopened : next.opened? with
      | none => rfl
      | some o =>
        obtain ⟨c, _, _, _, _, hheld, hopen⟩ := Held.of_opened? hopened
        have hnone : o.awaiting = none := by
          rw [hheld] at hnext
          rw [hopen]
          exact hnext
        simp [hnone]
    refine (ih m settled next hw h hnext).congr ?_
    rw [isSeparate_cons_iff hstays (htaken.takesIn_eq hnext), hother]
    exact ⟨And.right, fun hrest => ⟨rfl, hrest⟩⟩
  | some k =>
    have hawaiting : m.isAwaiting = true := by rw [h.isAwaiting, hnext]; rfl
    obtain ⟨o, ho, hsome⟩ := (Option.any_eq_true _ _).mp hawaiting
    have hunites := htaken.unites_of_awaiting (hnext ▸ rfl)
    have hstays := htaken.outlasts_eq
    rw [← h.opened, ho, Option.any_some, hsome, Bool.true_and] at hstays
    rw [drain_of_awaiting hawaiting]
    by_cases hdue : o.deadline ≤ now
    · -- its wait ends at once, and what waits behind it is worked off as well
      have hrest := (ih { m with opened := none } settled .nothing hw
        (h.not_opened ho fed settled) rfl).append o.settle
      rw [← late_of_due h ho hdue, ← flush_of_opened h ho] at hrest
      refine hrest.congr ?_
      rw [isSeparate_cons_iff (by simpa [hdue] using hstays)
        (fun d => (takesIn_nothing now d).trans (hunites d).symm), hother]
      exact ⟨And.right, fun hrest => ⟨rfl, hrest⟩⟩
    · have hsame : late now (m, {}) = m.flush.2 := late_of_not_due fun p hp => by
        obtain rfl := Option.some.inj (ho.symm.trans hp)
        exact hdue
      exact ⟨fun _ => hsame,
        fun hnot => absurd (isSeparate_of_outlasts (by simpa [hdue] using hstays) hother) hnot⟩

/-- **A backlog that is worked off comes to what it comes to in the end**, exactly if nothing comes
together; otherwise to less. -/
theorem late_drain {fed : List Candidate} {settled waiting : List Entry}
    (h : m.Shows ⟨fed, settled, held, waiting⟩) (hw : m.window = window)
    (hfree : held.awaiting = none) (now : τ) :
    Yield.SameIff (IsSeparate window now held m.backlog) (late now (m.drain now)) m.flush.2 := by
  -- along the backlog: each candidate is taken in by what is held, or taken up after it
  induction waiting generalizing m settled held with
  | nil =>
    have hb : m.backlog = [] := h.backlog
    have hseparate : IsSeparate window now held m.backlog := by
      rw [hb]
      exact ⟨fun c hc => absurd hc (Option.not_mem_none c), .nil⟩
    have hdrain : m.drain now = (m, {}) := by
      rw [drain, hb, drainList, ← hb]
    rw [hdrain, late_of_none_waiting h rfl]
    exact ⟨fun _ => rfl, fun hnot => absurd hseparate hnot⟩
  | cons e rest ih =>
    have hb : m.backlog = e.candidate :: rest.map Entry.candidate := h.backlog
    have hm : m.isAwaiting = false := by rw [h.isAwaiting, hfree]; rfl
    have he := h.fresh e List.mem_cons_self
    have hrest : ({ m with backlog := rest.map Entry.candidate } : Coalescer τ).Shows
        ⟨fed, settled, held, rest⟩ :=
      ⟨h.fill, h.opened, rfl, fun f hf => h.fresh f (List.mem_cons_of_mem _ hf)⟩
    have hw' : ({ m with backlog := rest.map Entry.candidate }.absorb e.candidate now).1.window =
        window :=
      (window_absorb _ _ _).trans hw
    have hdrain := late_drain_cons hm hb now
    cases htakes : held.takesIn now e.candidate with
    | false =>
      obtain ⟨es, next, htaken, hshows, hyields⟩ := absorb_of_not_takesIn hrest hfree he htakes
      have hflush : m.flush.2 = .ofEntries (held.settled ++ es) ++
          ({ m with backlog := rest.map Entry.candidate }.absorb e.candidate now).1.flush.2 := by
        rw [flush_yields h, flush_yields hshows, ← Yield.ofEntries_append, List.append_assoc,
          htaken.settled_cut]
      have hlater := late_drain_taken (hw ▸ htaken) hshows hw' htakes fun n _ _ hn hshows hfree =>
        ih hshows hn hfree
      rw [hshows.backlog, ← hb] at hlater
      rw [hyields] at hdrain
      rw [hdrain rfl, hflush]
      exact hlater.append _
    | true =>
      obtain ⟨next, (hdeed : Ledger.Deed window now _ _), hshows, hyields, hnext, hlength⟩ :=
        absorb_of_takesIn hrest hfree he htakes
      have hless : ({ m with backlog := rest.map Entry.candidate }.absorb
          e.candidate now).1.flush.2.committed.length < m.flush.2.committed.length := by
        rw [flush_yields h, flush_yields hshows]
        simp [Yield.ofEntries, hlength]
      rw [hyields] at hdrain
      refine ⟨fun hseparate => ?_, fun _ => ?_⟩
      · have hfirst := hseparate.first e.candidate (hb ▸ rfl)
        exact absurd (hfirst.symm.trans htakes) Bool.false_ne_true
      · rw [hdrain rfl]
        exact Nat.lt_of_le_of_lt (ih hshows hw' hnext).length_le hless

/-- **A tick before the end makes no difference**, once the open action is due, exactly if nothing
comes together of what it works off; otherwise less is committed. -/
theorem tick_flush [LT τ] [DecidableLT τ] (h : m.Shows l) (ho : m.opened = some o)
    (hdue : o.deadline ≤ now) :
    Yield.SameIff
      ((workedOff m.window now m.backlog).IsChain fun c d => unites m.window now c d = false)
      ((m.tick now).2 ++ (m.tick now).1.flush.2) m.flush.2 := by
  have htold : ({ m with lastNow := later m.lastNow now } : Coalescer τ).Shows l :=
    ⟨h.fill, h.opened, h.backlog, h.fresh⟩
  have hdrain := (late_drain (htold.not_opened ho l.fed l.settled) (rfl : _ = m.window) rfl
    now).append o.settle
  have htick : (m.tick now).2 ++ (m.tick now).1.flush.2 =
      late now ({ m with lastNow := later m.lastNow now }, {}) :=
    (Yield.ofEntries_nil_append _).symm
  rw [htick, late_of_due htold ho hdue, flush_yields h, ← flush_yields htold,
    flush_of_opened htold ho]
  exact hdrain.congr isSeparate_nothing_iff.symm

end Coalescer

end Scribe
