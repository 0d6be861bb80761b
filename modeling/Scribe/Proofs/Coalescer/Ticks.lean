import Scribe.Proofs.Coalescer.Settling
import Mathlib.Algebra.Order.Monoid.Defs

/-!
# Early and late ticks

Whether time is told early or late should make no difference: an action that expires is settled as
it is, whenever that is, and what waits behind it is worked off in the same way. The two only differ
in the deadline of an action that is opened then and stays open, since it counts from that moment
(`Scribe.Coalescer.tick_alike`). And in the end what still waits is not worked off any more, but
settled one by one.

`Scribe.Coalescer.Releases` says when this matters. A tick at which it does not can be left out.
`Scribe.Coalescer.IsAhead` compares a coalescer with one that was told the time more often, and says
what the second has settled in advance.

* `Scribe.Coalescer.IsAhead.tick` – it may be told the time once more;
* `Scribe.Coalescer.IsAhead.feed` – at the next candidate the two meet again.
-/

namespace Scribe

/-- Whether two candidates **come together** when the second is taken up right after the first:
fills of one key, or an action and a signal of its page. -/
def Candidate.joins : Candidate → Candidate → Bool
  | action c, action d => c.isMergeable && d.isMergeable && c.key == d.key
  | action c, signal s => c.action.kind.bearsSignals && c.action.page == s.page
  | _, _ => false

/-- **Two open actions are alike**, the one at an early time and the other at a late one: they
differ in their deadlines only, and either both are due or neither, and both are in time or neither.
-/
structure OpenAction.Alike {τ : Type} [LE τ] (early late : τ) (o p : OpenAction τ) : Prop where
  action : o.action = p.action
  awaiting : o.awaiting = p.awaiting
  due : o.deadline ≤ early ↔ p.deadline ≤ late
  inTime : early ≤ o.deadline ↔ late ≤ p.deadline

namespace Coalescer

variable {τ : Type} [LinearOrder τ]

theorem later_eq_max (a b : τ) : later a b = max a b := by
  rw [later]
  split
  · next h => exact (max_eq_right h.le).symm
  · next h => exact (max_eq_left (not_lt.mp h)).symm

/-- Only the latest of the times counts. -/
theorem later_later {a early late : τ} (h : early ≤ late) :
    later (later a early) late = later a late := by
  rw [later_eq_max, later_eq_max, later_eq_max, max_assoc, max_eq_right h]

variable {m n : Coalescer τ} {l : Ledger τ} {o : OpenAction τ} {early late now : τ} {y : Yield}

/-! ### The same at two times -/

/-- **Two coalescers are alike**, the one at an early time and the other at a late one: they differ
in the deadline of the open action and in the latest time only. -/
def Alike (early late : τ) (m n : Coalescer τ) : Prop :=
  ∃ (opened : Option (OpenAction τ)) (last : τ),
    Option.Rel (OpenAction.Alike early late) m.opened opened ∧
      n = { m with opened := opened, lastNow := last }

theorem Alike.isAwaiting_eq (h : Alike early late m n) : n.isAwaiting = m.isAwaiting := by
  obtain ⟨p, last, hopened, rfl⟩ := h
  simp only [isAwaiting]
  generalize m.opened = o at hopened
  cases hopened with
  | none => rfl
  | some hop => simp [hop.awaiting]

theorem Alike.exists_right (h : Alike early late m n) (ho : m.opened = some o) :
    ∃ q, n.opened = some q ∧ o.Alike early late q := by
  obtain ⟨p, last, hopened, rfl⟩ := h
  rw [ho] at hopened
  cases hopened with
  | some hop => exact ⟨_, rfl, hop⟩

theorem Alike.exists_left {q : OpenAction τ} (h : Alike early late m n) (hq : n.opened = some q) :
    ∃ o, m.opened = some o ∧ o.Alike early late q := by
  obtain ⟨p, last, hopened, rfl⟩ := h
  obtain rfl : p = some q := hq
  generalize m.opened = o at hopened
  cases hopened with
  | some hop => exact ⟨_, rfl, hop⟩

/-- If nothing is open, they differ in the latest time only. -/
theorem Alike.eq_of_none (h : Alike early late m n) (hnone : m.opened = none) :
    n = { m with lastNow := n.lastNow } := by
  obtain ⟨p, last, hopened, rfl⟩ := h
  rw [hnone] at hopened
  cases hopened
  rw [hnone]

/-- What is held comes to the same. -/
theorem settle_alike {o p : OpenAction τ} (h : o.Alike early late p) : p.settle = o.settle := by
  rw [OpenAction.settle, OpenAction.settle, h.awaiting, h.action]

theorem settleHeld_alike (h : Alike early late m n) :
    Alike early late m.settleHeld.1 n.settleHeld.1 ∧ m.settleHeld.2 = n.settleHeld.2 := by
  obtain ⟨p, last, hopened, rfl⟩ := h
  refine ⟨⟨none, last, .none, rfl⟩, ?_⟩
  simp only [settleHeld, openYield]
  generalize m.opened = o at hopened
  cases hopened with
  | none => rfl
  | some hop => simp only [Option.elim, settle_alike hop]

theorem Alike.with_backlog (h : Alike early late m n) (backlog : List Candidate) :
    Alike early late { m with backlog := backlog } { n with backlog := backlog } := by
  obtain ⟨p, last, hopened, rfl⟩ := h
  exact ⟨p, last, hopened, rfl⟩

theorem receives_alike {o p : OpenAction τ} (h : o.Alike early late p) (s : SignalCandidate) :
    receives p s late = receives o s early := by
  simp only [receives, h.action, h.inTime]

/-- A signal is taken up in the same way at either time. -/
theorem absorbSignal_alike (h : Alike early late m n) (s : SignalCandidate) :
    Alike early late (m.absorbSignal s early).1 (n.absorbSignal s late).1 ∧
      (m.absorbSignal s early).2 = (n.absorbSignal s late).2 := by
  have hawaiting := h.isAwaiting_eq
  obtain ⟨-, hyields⟩ := settleHeld_alike h
  obtain ⟨p, last, hopened, rfl⟩ := h
  simp only [absorbSignal, hawaiting, ← hyields]
  cases ho : m.opened with
  | none =>
    obtain rfl : p = none := by
      rw [ho] at hopened
      cases hopened
      rfl
    dsimp only
    split
    · exact ⟨⟨none, last, .none, rfl⟩, rfl⟩
    · exact ⟨⟨none, last, .none, rfl⟩, rfl⟩
  | some o =>
    obtain ⟨q, rfl, hop⟩ : ∃ q, p = some q ∧ o.Alike early late q := by
      rw [ho] at hopened
      cases hopened with
      | some hop => exact ⟨_, rfl, hop⟩
    simp only [receives_alike hop, ← hop.action, ← hop.awaiting]
    split
    · have hreceived (awaiting : Option SignalKind) : OpenAction.Alike early late
          ⟨o.action.withSignal s.signal, o.deadline, awaiting⟩
          ⟨o.action.withSignal s.signal, q.deadline, awaiting⟩ :=
        ⟨rfl, rfl, hop.due, hop.inTime⟩
      split
      · exact settleHeld_alike (m := { m with opened := some _ })
          ⟨_, last, .some (hreceived none), rfl⟩
      · exact ⟨⟨_, last, .some (hreceived _), rfl⟩, rfl⟩
    split
    · exact ⟨⟨_, last, .some hop, rfl⟩, rfl⟩
    · exact ⟨⟨none, last, .none, rfl⟩, rfl⟩

/-! ### After a tick -/

section

variable [Add τ]

theorem lastNow_absorb (m : Coalescer τ) (c : Candidate) (now : τ) :
    (m.absorb c now).1.lastNow = m.lastNow := by
  obtain ⟨_, _, _, h⟩ := m.absorb_frame c now
  rw [h]

theorem lastNow_drainList (now : τ) (m : Coalescer τ) (backlog : List Candidate) :
    (drainList now m backlog).1.lastNow = m.lastNow := by
  induction backlog generalizing m with
  | nil => rfl
  | cons c rest ih =>
    rw [drainList]
    split
    · rfl
    dsimp only
    split
    · exact lastNow_absorb _ _ _
    · exact (ih _).trans (lastNow_absorb _ _ _)

/-- What is worked off at an expiry is not refused if the expiry is not. -/
theorem drain_refused (ho : m.opened = some o) (hdue : o.deadline ≤ now)
    (hr : (expire now m).2.refused = false) :
    ({ m with opened := none }.drain now).2.refused = false := by
  rw [expire] at hr
  split at hr
  · next h => simp [ho] at h
  · next h =>
    obtain rfl := Option.some.inj (ho.symm.trans h)
    rw [if_pos hdue] at hr
    dsimp only at hr
    split at hr
    · exact (Bool.or_eq_false_iff.mp hr).2
    · next hne => exact Bool.eq_false_iff.mpr hne

/-- **Nothing is due after an expiry**, and it leaves the latest time. -/
theorem expire_done (hr : (expire now m).2.refused = false) :
    (∀ o, (expire now m).1.opened = some o → ¬o.deadline ≤ now) ∧
      (expire now m).1.lastNow = m.lastNow := by
  induction m using expire_induction now with
  | still m hstill =>
    rw [expire_of_not_due hstill]
    exact ⟨hstill, rfl⟩
  | due m o ho hdue ih =>
    have hdrain := drain_refused ho hdue hr
    rw [expire_of_due ho hdue hdrain] at hr ⊢
    obtain ⟨hdone, hlast⟩ := ih (Bool.or_eq_false_iff.mp hr).2
    exact ⟨hdone, hlast.trans (lastNow_drainList _ _ _)⟩

/-- A tick at which nothing is due only tells the time. -/
theorem tick_of_not_due (h : ∀ o, m.opened = some o → ¬o.deadline ≤ now) :
    m.tick now = ({ m with lastNow := later m.lastNow now }, .ofEntries []) :=
  expire_of_not_due h

/-- Nothing is due after a tick, and its time has been told. -/
theorem tick_done (hr : (m.tick now).2.refused = false) :
    (∀ o, (m.tick now).1.opened = some o → ¬o.deadline ≤ now) ∧
      (m.tick now).1.lastNow = later m.lastNow now :=
  expire_done hr

end

section

variable [AddCommMonoid τ]

/-! ### Ticks that can be left out -/

/-- **A tick before the next call releases something**: the open action is due, and of what waits
behind it another is opened, whose deadline counts from now on. If no call follows, two of those
that wait come together, which they would not in a flush. -/
def Releases (m : Coalescer τ) (now : τ) (next : Option τ) : Prop :=
  (∃ o ∈ m.opened, o.deadline ≤ now) ∧
    match next with
    | some next => now ≠ next ∧ (m.tick now).1.opened.isSome
    | none => ¬m.backlog.IsChain fun c d => c.joins d = false

instance (m : Coalescer τ) (now : τ) (next : Option τ) : Decidable (m.Releases now next) :=
  match next with
  | some next => inferInstanceAs (Decidable
      ((∃ o ∈ m.opened, o.deadline ≤ now) ∧ now ≠ next ∧ (m.tick now).1.opened.isSome))
  | none => inferInstanceAs (Decidable
      ((∃ o ∈ m.opened, o.deadline ≤ now) ∧ ¬m.backlog.IsChain fun c d => c.joins d = false))

/-- Only such as join come together when they are worked off. -/
theorem unites_of_not_joins {window : ActionCandidate → τ} {c d : Candidate}
    (h : c.joins d = false) : unites window now c d = false := by
  cases c with
  | action c =>
    cases d with
    | action d => exact h
    | signal s =>
      by_contra hunites
      simp only [unites, Bool.not_eq_false, Bool.and_eq_true] at hunites
      obtain ⟨⟨hbears, -⟩, hreceives⟩ := hunites
      have hpage : s.page = c.action.page := (Ledger.of_receives hreceives).1
      simp [Candidate.joins, hbears, hpage] at h
    | foreign => rfl
  | signal s => rfl
  | foreign => rfl

/-- **A tick makes no difference to what is settled in the end**, if it releases nothing. -/
theorem flush_tick (h : m.Shows l) (hnot : ¬m.Releases now none) :
    m.flush.2 = (m.tick now).2 ++ (m.tick now).1.flush.2 := by
  by_cases hdue : ∃ o ∈ m.opened, o.deadline ≤ now
  · obtain ⟨o, ho, hle⟩ := hdue
    have hchain : m.backlog.IsChain fun c d => c.joins d = false :=
      not_not.mp fun hjoins => hnot ⟨⟨o, ho, hle⟩, hjoins⟩
    refine ((tick_flush h ho hle).eq ?_).symm
    exact List.IsChain.prefix (hchain.imp fun _ _ => unites_of_not_joins)
      (workedOff_isPrefix _ _ _)
  · have htold : ({ m with lastNow := later m.lastNow now } : Coalescer τ).Shows l :=
      ⟨h.fill, h.opened, h.backlog, h.fresh⟩
    rw [tick_of_not_due fun o ho hle => hdue ⟨o, ho, hle⟩, flush_yields h, flush_yields htold,
      Yield.ofEntries_nil_append]

/-! ### Being ahead -/

/-- **One coalescer is ahead of another** by a yield: it has settled in advance what the other will
settle in its next call, of a given time, or in the end. -/
def IsAhead (next : Option τ) (m n : Coalescer τ) (y : Yield) : Prop :=
  match next with
  | some now => m.tick now = ((n.tick now).1, y ++ (n.tick now).2)
  | none => m.flush.2 = y ++ n.flush.2

theorem IsAhead.refl (next : Option τ) (m : Coalescer τ) : IsAhead next m m {} := by
  cases next with
  | none => exact (Yield.ofEntries_nil_append _).symm
  | some now => exact Prod.ext rfl (Yield.ofEntries_nil_append _).symm

/-- **At the next candidate the two meet again.** -/
theorem IsAhead.feed (h : IsAhead (some now) m n y) (hy : y.refused = false) (c : Candidate) :
    m.feed c now = ((n.feed c now).1, y ++ (n.feed c now).2) := by
  have htick : m.tick now = ((n.tick now).1, y ++ (n.tick now).2) := h
  have hrefused : (y ++ (n.tick now).2).refused = (n.tick now).2.refused := by
    rw [Yield.refused_append, hy, Bool.false_or]
  simp only [Coalescer.feed, htick, hrefused]
  split
  · rfl
  split
  · rfl
  · simp only [Yield.append_assoc]

end

/-! ### Early and late -/

variable [AddCommMonoid τ] [IsOrderedCancelAddMonoid τ]

/-- **A deadline counts from the time.** -/
theorem alike_open (early late window : τ) (a : Action) (awaiting : Option SignalKind) :
    OpenAction.Alike early late ⟨a, early + window, awaiting⟩ ⟨a, late + window, awaiting⟩ := by
  constructor <;> simp

/-- An action is taken up in the same way at either time. -/
theorem absorbAction_alike (h : Alike early late m n) (c : ActionCandidate) :
    Alike early late (m.absorbAction c early).1 (n.absorbAction c late).1 ∧
      (m.absorbAction c early).2 = (n.absorbAction c late).2 := by
  obtain ⟨-, hyields⟩ := settleHeld_alike h
  obtain ⟨p, last, hopened, rfl⟩ := h
  simp only [absorbAction, ← hyields]
  split
  · exact ⟨⟨p, last, hopened, rfl⟩, rfl⟩
  split
  · exact ⟨⟨none, last, .none, rfl⟩, rfl⟩
  split
  · exact ⟨⟨_, last, .some (alike_open early late _ _ _), rfl⟩, rfl⟩
  · exact ⟨⟨none, last, .none, rfl⟩, rfl⟩

/-- **A candidate is taken up in the same way** at either time. -/
theorem absorb_alike (h : Alike early late m n) (c : Candidate) :
    Alike early late (m.absorb c early).1 (n.absorb c late).1 ∧
      (m.absorb c early).2 = (n.absorb c late).2 := by
  cases c with
  | action c => exact absorbAction_alike h c
  | signal s => exact absorbSignal_alike h s
  | foreign => exact ⟨h, rfl⟩

/-- **What waits is worked off in the same way** at either time. -/
theorem drainList_alike (h : Alike early late m n) (backlog : List Candidate) :
    Alike early late (drainList early m backlog).1 (drainList late n backlog).1 ∧
      (drainList early m backlog).2 = (drainList late n backlog).2 := by
  induction backlog generalizing m n with
  | nil => exact ⟨h.with_backlog [], rfl⟩
  | cons c rest ih =>
    obtain ⟨habsorb, hyields⟩ := absorb_alike (h.with_backlog rest) c
    obtain ⟨hrest, hyields'⟩ := ih habsorb
    rw [drainList, drainList, h.isAwaiting_eq]
    dsimp only
    rw [← hyields]
    split
    · exact ⟨h.with_backlog _, rfl⟩
    split
    · exact ⟨habsorb, rfl⟩
    · exact ⟨hrest, congrArg (_ ++ ·) hyields'⟩

/-- **What waits behind an open action** is worked off in the same way. -/
theorem drain_alike (h : Alike early late m n) :
    Alike early late ({ m with opened := none }.drain early).1
        ({ n with opened := none }.drain late).1 ∧
      ({ m with opened := none }.drain early).2 = ({ n with opened := none }.drain late).2 := by
  obtain ⟨p, last, -, rfl⟩ := h
  exact drainList_alike ⟨none, last, .none, rfl⟩ m.backlog

/-- **What has expired comes to the same** at either time. -/
theorem expire_alike (h : Alike early late m n) (hr : (expire early m).2.refused = false) :
    Alike early late (expire early m).1 (expire late n).1 ∧
      (expire early m).2 = (expire late n).2 := by
  induction m using expire_induction early generalizing n with
  | still m hstill =>
    have hstill' : ∀ q, n.opened = some q → ¬q.deadline ≤ late := by
      intro q hq hdue
      obtain ⟨o, ho, hop⟩ := h.exists_left hq
      exact hstill o ho (hop.due.mpr hdue)
    rw [expire_of_not_due hstill, expire_of_not_due hstill']
    exact ⟨h, rfl⟩
  | due m o ho hdue ih =>
    obtain ⟨q, hq, hop⟩ := h.exists_right ho
    have hdrain := drain_refused ho hdue hr
    obtain ⟨hdrained, hyields⟩ := drain_alike h
    rw [expire_of_due ho hdue hdrain] at hr ⊢
    rw [expire_of_due hq (hop.due.mp hdue) (hyields ▸ hdrain)]
    obtain ⟨hrest, hyields'⟩ := ih hdrained (Bool.or_eq_false_iff.mp hr).2
    exact ⟨hrest, by rw [settle_alike hop, ← hyields, ← hyields']⟩

/-- **An action that is due comes to the same whenever time is told**, and so does what waits behind
it. -/
theorem tick_alike (ho : m.opened = some o) (hdue : o.deadline ≤ early) (h : early ≤ late)
    (hr : (m.tick early).2.refused = false) :
    Alike early late (m.tick early).1 (m.tick late).1 ∧ (m.tick early).2 = (m.tick late).2 := by
  have hdrain := drain_refused (m := { m with lastNow := later m.lastNow early }) ho hdue hr
  -- no action is open any more, and only the latest time differs
  obtain ⟨hdrained, hyields⟩ : Alike early late _ _ ∧ _ := drainList_alike
    (m := { m with opened := none, lastNow := later m.lastNow early })
    (n := { m with opened := none, lastNow := later m.lastNow late })
    ⟨none, _, .none, rfl⟩ m.backlog
  have hearly := expire_of_due (m := { m with lastNow := later m.lastNow early }) ho hdue hdrain
  have hlate := expire_of_due (m := { m with lastNow := later m.lastNow late }) ho (hdue.trans h)
    ((congrArg Yield.refused hyields.symm).trans hdrain)
  rw [tick, hearly] at hr
  obtain ⟨hrest, hyields'⟩ := expire_alike hdrained (Bool.or_eq_false_iff.mp hr).2
  rw [tick, tick, hearly, hlate]
  exact ⟨hrest, congrArg₂ (o.settle ++ · ++ ·) hyields hyields'⟩

/-- **An early tick makes no difference to a late one**, if it releases nothing. -/
theorem tick_tick (h : early ≤ late) (hr : (m.tick early).2.refused = false)
    (hm : ¬m.Releases early (some late)) :
    m.tick late = (((m.tick early).1.tick late).1,
      (m.tick early).2 ++ ((m.tick early).1.tick late).2) := by
  by_cases hdue : ∃ o ∈ m.opened, o.deadline ≤ early
  · obtain ⟨o, ho, hle⟩ := hdue
    obtain ⟨hdone, hlast⟩ := tick_done hr
    by_cases heq : early = late
    · subst heq
      rw [tick_of_not_due hdone, Yield.append_ofEntries_nil, hlast, later_later le_rfl, ← hlast]
    · have hnone : (m.tick early).1.opened = none := by
        by_contra hne
        exact hm ⟨⟨o, ho, hle⟩, heq, Option.isSome_iff_ne_none.mpr hne⟩
      obtain ⟨halike, hyields⟩ := tick_alike ho hle h hr
      have hstate := halike.eq_of_none hnone
      rw [(tick_done (hyields ▸ hr)).2, ← later_later h, ← hlast] at hstate
      have hstill : ∀ o, (m.tick early).1.opened = some o → ¬o.deadline ≤ late := by simp [hnone]
      rw [tick_of_not_due hstill, Yield.append_ofEntries_nil, hyields]
      exact Prod.ext hstate rfl
  · rw [tick_of_not_due fun o ho hle => hdue ⟨o, ho, hle⟩, Yield.ofEntries_nil_append, tick, tick]
    dsimp only
    rw [later_later h]

/-- **A coalescer that is ahead may be told the time once more**, if this releases nothing. -/
theorem IsAhead.tick {next : Option τ} (h : IsAhead next m n y) (hn : n.Shows l)
    (hr : (n.tick now).2.refused = false) (hle : ∀ t ∈ next, now ≤ t)
    (hnot : ¬n.Releases now next) : IsAhead next m (n.tick now).1 (y ++ (n.tick now).2) := by
  cases next with
  | none => rw [IsAhead, h, flush_tick hn hnot, Yield.append_assoc]
  | some t => rw [IsAhead, h, tick_tick (hle t rfl) hr hnot, Yield.append_assoc]

end Coalescer

end Scribe
