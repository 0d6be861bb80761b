import Scribe.Candidate

/-!
# Coalescing candidates

**The coalescer** takes candidates one after the other and tells which actions are settled.

* Fills of one element that follow each other become one, the last.
* A signal-bearing action stays open for a while, and the signals of its page that arrive meanwhile
  are put down to it, at most one of each kind. Other signals stand for themselves.
* While an open action awaits a signal, all else waits in a backlog, so that the order is kept. If
  the signal does not come in time, the action is settled as incomplete, and a warning says so.

Time is whatever the caller says it is (`τ`); the coalescer has no clock.

* `Scribe.Coalescer.feed` – the next candidate;
* `Scribe.Coalescer.tick` – time goes by;
* `Scribe.Coalescer.flush` – everything is settled.
-/

namespace Scribe

/-- **A warning**: a signal was awaited in vain. -/
structure MissedSignal where
  /-- The signal that was awaited. -/
  awaited : SignalKind
  /-- The page of the action. -/
  page : String
  /-- The kind of the action. -/
  kind : Kind
  deriving Repr, DecidableEq

/-- A warning in words. -/
def MissedSignal.message (w : MissedSignal) : String :=
  s!"{w.awaited.name} を待機しましたが発生しませんでした " ++
    s!"({w.page} の {w.kind.name})。同期なしで記録します"

/-- **What a call yields**: the actions that it settled, in order, the warnings that it gave, and
whether it met a candidate that it had to refuse. Then it stops there, and its caller does not get
the actions. -/
structure Yield where
  committed : List Action := []
  missed : List MissedSignal := []
  refused : Bool := false
  deriving Repr, DecidableEq

/-- One yield after another. -/
def Yield.append (a b : Yield) : Yield where
  committed := a.committed ++ b.committed
  missed := a.missed ++ b.missed
  refused := a.refused || b.refused

instance : Append Yield := ⟨Yield.append⟩

/-- **An open action**: it receives signals until its deadline. -/
structure OpenAction (τ : Type) where
  /-- The action, with the signals that it has received. -/
  action : Action
  /-- When it is settled at the latest. -/
  deadline : τ
  /-- The signal that it awaits. -/
  awaiting : Option SignalKind := none
  deriving Repr, DecidableEq

/-- An open action settled. What it still awaits is incomplete. -/
def OpenAction.settle (o : OpenAction τ) : Yield :=
  match o.awaiting with
  | none => { committed := [o.action] }
  | some k =>
    { committed :=
        [{ o.action with incompleteSignals := o.action.incompleteSignals ++ [k] }]
      missed := [⟨k, o.action.page, o.action.kind⟩] }

/-- **The coalescer.** -/
structure Coalescer (τ : Type) where
  /-- How long an action receives signals. -/
  signalWindow : τ
  /-- How long an awaited signal is waited for. -/
  syncTimeout : τ
  /-- The fill that a later one may replace. -/
  fill : Option ActionCandidate := none
  /-- The action that receives signals. -/
  opened : Option (OpenAction τ) := none
  /-- What waits behind an action that awaits a signal. -/
  backlog : List Candidate := []
  /-- The latest time that was told. -/
  lastNow : τ
  deriving Repr, DecidableEq

namespace Coalescer

/-- What is said of a negative window. -/
def windowMessage : String :=
  "signal_window と sync_timeout は 0 以上で指定してください"

section

variable {τ : Type}

/-- Whether anything is not settled yet. -/
def hasPending (m : Coalescer τ) : Bool :=
  m.fill.isSome || m.opened.isSome || !m.backlog.isEmpty

/-- When time has to be told at the latest. -/
def deadline? (m : Coalescer τ) : Option τ :=
  m.opened.map (·.deadline)

/-- Whether an open action awaits a signal. -/
def isAwaiting (m : Coalescer τ) : Bool :=
  m.opened.any (·.awaiting.isSome)

/-- What settling the open action yields. -/
def openYield (m : Coalescer τ) : Yield :=
  m.opened.elim {} OpenAction.settle

/-- **Settles what is held**: the fill, then the open action. The backlog stays. -/
def settleHeld (m : Coalescer τ) : Coalescer τ × Yield :=
  ({ m with fill := none, opened := none },
    { committed := (m.fill.map (·.action)).toList } ++ m.openYield)

section

variable [Add τ]

/-- **Takes up an action.** A fill replaces the fill of the same element; otherwise what is held is
settled first. Then a fill is held, a signal-bearing action is opened, and any other is settled. -/
def absorbAction (m : Coalescer τ) (c : ActionCandidate) (now : τ) : Coalescer τ × Yield :=
  if c.isMergeable && m.fill.any (·.key == c.key) then ({ m with fill := some c }, {})
  else
    let (m, y) := m.settleHeld
    if c.isMergeable then ({ m with fill := some c }, y)
    else if c.action.kind.bearsSignals then
      let window := if c.awaiting.isSome then m.syncTimeout else m.signalWindow
      ({ m with opened := some ⟨c.action, now + window, c.awaiting⟩ }, y)
    else (m, y ++ { committed := [c.action] })

/-- Whether an open action receives a signal: it is of the same page, in time, and the first of its
kind. -/
def receives [LE τ] [DecidableLE τ] (o : OpenAction τ) (c : SignalCandidate) (now : τ) : Bool :=
  o.action.page == c.page && decide (now ≤ o.deadline) && (o.action.signal? c.signal.kind).isNone

/-- **Takes up a signal.** The open action receives it if it can, and is settled if it awaited just
this signal. Otherwise the signal waits behind an action that awaits another, or what is held is
settled and the signal stands for itself. -/
def absorbSignal [LE τ] [DecidableLE τ] (m : Coalescer τ) (c : SignalCandidate) (now : τ) :
    Coalescer τ × Yield :=
  let refused : Coalescer τ × Yield :=
    if m.isAwaiting then ({ m with backlog := m.backlog ++ [.signal c] }, {})
    else
      let (m, y) := m.settleHeld
      (m, y ++ { committed := [c.standalone] })
  match m.opened with
  | none => refused
  | some o =>
    if receives o c now then
      let o := { o with action := o.action.withSignal c.signal }
      if o.awaiting == some c.signal.kind then
        { m with opened := some { o with awaiting := none } }.settleHeld
      else ({ m with opened := some o }, {})
    else refused

/-- **Takes up a candidate.** -/
def absorb [LE τ] [DecidableLE τ] (m : Coalescer τ) (c : Candidate) (now : τ) :
    Coalescer τ × Yield :=
  match c with
  | .action c => m.absorbAction c now
  | .signal c => m.absorbSignal c now
  | .foreign => (m, { refused := true })

/-- Takes up the candidates of a backlog in order, as long as no action awaits a signal and none is
refused. What is left stays in the backlog. -/
def drainList [LE τ] [DecidableLE τ] (now : τ) : Coalescer τ → List Candidate → Coalescer τ × Yield
  | m, [] => ({ m with backlog := [] }, {})
  | m, c :: rest =>
    if m.isAwaiting then ({ m with backlog := c :: rest }, {})
    else
      let (m, y) := { m with backlog := rest }.absorb c now
      if y.refused then (m, y)
      else
        let (m, z) := drainList now m rest
        (m, y ++ z)

/-- **Works off the backlog** as far as it goes. -/
def drain [LE τ] [DecidableLE τ] (m : Coalescer τ) (now : τ) : Coalescer τ × Yield :=
  drainList now m m.backlog

/-! ### Expiry

An open action expires at its deadline, and the backlog behind it is worked off. That may open
another action, which may have expired as well. What is held or waits becomes less each time. -/

/-- How much the coalescer holds back, a fill aside. -/
def load (m : Coalescer τ) : Nat :=
  m.backlog.length + m.opened.isSome.toNat

/-- Unless an action awaits a signal, taking up a candidate leaves the backlog alone. -/
theorem absorb_backlog [LE τ] [DecidableLE τ] {m : Coalescer τ} (h : m.isAwaiting = false)
    (c : Candidate) (now : τ) : (m.absorb c now).1.backlog = m.backlog := by
  cases c with
  | action c =>
    simp only [absorb, absorbAction, settleHeld]
    repeat' split
    all_goals rfl
  | signal c =>
    simp only [absorb, absorbSignal, settleHeld, h, Bool.false_eq_true, if_false]
    repeat' split
    all_goals rfl
  | foreign => rfl

theorem load_drainList_le [LE τ] [DecidableLE τ] (now : τ) (m : Coalescer τ)
    (l : List Candidate) : (drainList now m l).1.load ≤ l.length + m.opened.isSome.toNat := by
  induction l generalizing m with
  | nil => simp [drainList, load]
  | cons c rest ih =>
    rw [drainList]
    split
    · simp [load]
    · rename_i hm
      have hb : ({ m with backlog := rest }.absorb c now).1.backlog = rest :=
        absorb_backlog (by simpa [isAwaiting] using hm) c now
      have hone := Bool.toNat_le ({ m with backlog := rest }.absorb c now).1.opened.isSome
      dsimp only
      split
      · simp only [load, hb, List.length_cons]; omega
      · have := ih ({ m with backlog := rest }.absorb c now).1
        simp only [List.length_cons]; omega

/-- Settling an open action and working off the backlog behind it leaves less than before. -/
theorem load_drain_lt [LE τ] [DecidableLE τ] {m : Coalescer τ} (h : m.opened.isSome) (now : τ) :
    ({ m with opened := none }.drain now).1.load < m.load := by
  have := load_drainList_le now { m with opened := none } m.backlog
  simp only [Option.isSome_none, Bool.toNat_false] at this
  have hm : m.load = m.backlog.length + 1 := by simp [load, h]
  exact Nat.lt_of_le_of_lt this (by omega)

/-- **Settles what has expired.** -/
def expire [LE τ] [DecidableLE τ] (now : τ) (m : Coalescer τ) : Coalescer τ × Yield :=
  match h : m.opened with
  | none => (m, {})
  | some o =>
    if o.deadline ≤ now then
      let y := o.settle
      let r := { m with opened := none }.drain now
      if r.2.refused then (r.1, y ++ r.2)
      else
        have : ({ m with opened := none }.drain now).1.load < m.load :=
          load_drain_lt (by simp [h]) now
        let s := expire now r.1
        (s.1, y ++ r.2 ++ s.2)
    else (m, {})
termination_by m.load

section

variable [LE τ] [DecidableLE τ] {m : Coalescer τ} {o : OpenAction τ} {now : τ}

/-- Nothing happens as long as nothing is due. -/
theorem expire_of_not_due (h : ∀ o, m.opened = some o → ¬o.deadline ≤ now) :
    expire now m = (m, {}) := by
  rw [expire]
  split
  · rfl
  · next o ho => rw [if_neg (h o ho)]

/-- An open action that is due is settled, the backlog behind it is worked off, and so on. -/
theorem expire_of_due (ho : m.opened = some o) (hdue : o.deadline ≤ now)
    (hr : ({ m with opened := none }.drain now).2.refused = false) :
    expire now m =
      ((expire now ({ m with opened := none }.drain now).1).1,
        o.settle ++ ({ m with opened := none }.drain now).2 ++
          (expire now ({ m with opened := none }.drain now).1).2) := by
  rw [expire]
  split
  · next h => simp [ho] at h
  · next h =>
    obtain rfl := Option.some.inj (ho.symm.trans h)
    rw [if_pos hdue]
    dsimp only
    rw [if_neg (Bool.eq_false_iff.mp hr)]

/-- Induction along the expiries at one time. -/
theorem expire_induction {motive : Coalescer τ → Prop} (now : τ)
    (still : ∀ m, (∀ o, m.opened = some o → ¬o.deadline ≤ now) → motive m)
    (due : ∀ m o, m.opened = some o → o.deadline ≤ now →
      motive ({ m with opened := none }.drain now).1 → motive m) (m : Coalescer τ) :
    motive m := by
  induction hload : m.load using Nat.strongRecOn generalizing m with
  | ind n ih =>
    cases ho : m.opened with
    | none => exact still m fun o h => by simp [ho] at h
    | some o =>
      by_cases hdue : o.deadline ≤ now
      · refine due m o ho hdue (ih _ ?_ _ rfl)
        rw [← hload]
        exact load_drain_lt (by simp [ho]) now
      · refine still m fun o' h => ?_
        obtain rfl := Option.some.inj (ho.symm.trans h)
        exact hdue

end

/-! ### The calls -/

/-- The later of two times. -/
def later [LT τ] [DecidableLT τ] (a b : τ) : τ :=
  if a < b then b else a

/-- **Time goes by**: what has expired is settled. -/
def tick [LE τ] [DecidableLE τ] [LT τ] [DecidableLT τ] (m : Coalescer τ) (now : τ) :
    Coalescer τ × Yield :=
  expire now { m with lastNow := later m.lastNow now }

/-- Takes up a candidate, and works off the backlog if that released it. -/
def take [LE τ] [DecidableLE τ] (m : Coalescer τ) (c : Candidate) (now : τ) :
    Coalescer τ × Yield :=
  let (n, y) := m.absorb c now
  if m.isAwaiting && !n.isAwaiting then
    let (n, z) := n.drain now
    (n, y ++ z)
  else (n, y)

/-- Whether a candidate may be put down to an action that awaits a signal. -/
def isSignal : Candidate → Bool
  | .signal _ => true
  | _ => false

/-- **The next candidate.** -/
def feed [LE τ] [DecidableLE τ] [LT τ] [DecidableLT τ] (m : Coalescer τ) (c : Candidate)
    (now : τ) : Coalescer τ × Yield :=
  let (m, y) := m.tick now
  if y.refused then (m, y)
  else if m.isAwaiting && !isSignal c then ({ m with backlog := m.backlog ++ [c] }, y)
  else
    let (m, z) := m.take c now
    (m, y ++ z)

/-- Settles what is held, then each candidate of a backlog and what it leaves held. -/
def flushList [LE τ] [DecidableLE τ] : Coalescer τ → List Candidate → Coalescer τ × Yield
  | m, [] => { m with backlog := [] }.settleHeld
  | m, c :: rest =>
    let (m, y) := m.settleHeld
    let (m, z) := { m with backlog := rest }.absorb c m.lastNow
    if z.refused then (m, y ++ z)
    else
      let (m, w) := flushList m rest
      (m, y ++ z ++ w)

/-- **Settles everything.** -/
def flush [LE τ] [DecidableLE τ] (m : Coalescer τ) : Coalescer τ × Yield :=
  flushList m m.backlog

/-- **A coalescer** with the given windows, unless one is negative. -/
def new? [OfNat τ 0] [LT τ] [DecidableLT τ] (signalWindow syncTimeout : τ) :
    Option (Coalescer τ) :=
  if signalWindow < 0 ∨ syncTimeout < 0 then none
  else some { signalWindow := signalWindow, syncTimeout := syncTimeout, lastNow := 0 }

end

end

end Coalescer

end Scribe
