import Mathlib.Order.Lattice
import Scribe.Proofs.Coalescer.Grouping

/-!
# The coalescer groups what is fed

The coalescer knows nothing of what is still to come: it gathers one group at a time, and commits it
when something arrives that does not go on with it, or when everything is settled. Yet what it
commits in the end is the grouping of all that was fed (`Scribe.Coalescer.runToEnd_grouping`).

What is gathered (`Scribe.Gathered`) is the invariant between two calls: the coalescer holds it and
nothing else (`Scribe.Coalescer.Gathers`). Of one call it is shown that it goes along with the
grouping (`Scribe.Coalescer.Sorts`): the groups of what had been gathered and of what arrives are
those that the call commits, followed by the groups of what is gathered then, whatever is still to
come. A call lets time go by (`Scribe.Coalescer.Gathers.tick`) and takes up an action or a signal
(`Scribe.Coalescer.Gathers.absorbAction`, `Scribe.Coalescer.Gathers.absorbSignal`). The times need
not be in order.
-/

namespace Scribe

/-! ### What is gathered -/

/-- **What is gathered of the next group**: nothing, a fill, or a signal-bearing action with the
signals that were put down to it. -/
inductive Gathered (τ : Type) where
  | nothing
  | fill (c : ActionCandidate) (start : τ)
  | opened (c : ActionCandidate) (start : τ) (sigs : List (SignalCandidate × τ))

namespace Gathered

variable {τ : Type}

/-- What has arrived of it. -/
def arrivals : Gathered τ → List (Arrival τ)
  | nothing => []
  | fill c start => [.action c start]
  | opened c start sigs => block c start sigs

/-- The group, should nothing go on with it. -/
def actions : Gathered τ → List Action
  | nothing => []
  | fill c _ => [c.action]
  | opened c _ sigs => [{ c.action with signals := sigs.map (·.1.signal) }]

/-- The fill that is held. -/
def fill? : Gathered τ → Option ActionCandidate
  | fill c _ => some c
  | _ => none

/-- The action that is open. -/
def opened? [Add τ] (window : τ) : Gathered τ → Option (OpenAction τ)
  | opened c start sigs =>
    some ⟨{ c.action with signals := sigs.map (·.1.signal) }, start + window, none⟩
  | _ => none

/-- **What is gathered belongs together.** -/
def IsSound [Add τ] [LT τ] (window : τ) : Gathered τ → Prop
  | nothing => True
  | fill c _ => c.isMergeable = true
  | opened c start sigs => c.action.kind.bearsSignals = true ∧ Suited window c start sigs

/-- Whether an arrival goes on with what is gathered. -/
def continues [Add τ] [LT τ] [DecidableLT τ] (window : τ) : Gathered τ → Arrival τ → Bool
  | nothing, _ => false
  | fill c _, a => a.refills c
  | opened c start sigs, a => goesOn window c start sigs a

variable [Add τ] {window : τ} {g : Gathered τ}

/-- **What is gathered is the first group** if the next arrival does not go on with it. -/
theorem grouping_arrivals [LT τ] [DecidableLT τ] (h : g.IsSound window) {rest : List (Arrival τ)}
    (hnext : ∀ a ∈ rest.head?, g.continues window a = false) :
    grouping window (g.arrivals ++ rest) = g.actions ++ grouping window rest := by
  cases g with
  | nothing => rfl
  | fill c start =>
    have hlast : rest.head?.any (Arrival.refills c) = false :=
      (Option.any_eq_false _ _).mpr fun a ha => Bool.not_eq_true _ ▸ hnext a ha
    have hgroups : grouping window (.action c start :: rest) = _ := grouping_fill h
    rw [hlast] at hgroups
    exact hgroups
  | opened c start sigs =>
    obtain ⟨hbears, hsuited⟩ := h
    exact grouping_block (Bool.eq_false_iff.mpr (ActionCandidate.not_isMergeable hbears)) hsuited
      hnext

/-- What does not go on with what is gathered comes after it. -/
theorem grouping_concat [LT τ] [DecidableLT τ] (h : g.IsSound window) {a : Arrival τ}
    (hnext : g.continues window a = false) (rest : List (Arrival τ)) :
    grouping window (g.arrivals ++ [a] ++ rest) = g.actions ++ grouping window (a :: rest) := by
  rw [← List.append_cons]
  refine grouping_arrivals h fun b hb => ?_
  obtain rfl := Option.some.inj hb
  exact hnext

/-- An action goes on with what is gathered only as a fill of the same element. -/
theorem continues_action [LT τ] [DecidableLT τ] (c : ActionCandidate) (now : τ) :
    g.continues window (.action c now) = (c.isMergeable && g.fill?.any (·.key == c.key)) := by
  cases g with
  | nothing => exact (Bool.and_false _).symm
  | fill d start => rfl
  | opened d start sigs => exact (Bool.and_false _).symm

omit [Add τ] in
theorem of_fill? {p : ActionCandidate → Bool} (h : g.fill?.any p = true) :
    ∃ c start, g = .fill c start := by
  cases g with
  | nothing => cases h
  | fill c start => exact ⟨c, start, rfl⟩
  | opened c start sigs => cases h

theorem fill?_of_opened? {o : OpenAction τ} (h : g.opened? window = some o) : g.fill? = none := by
  cases g with
  | nothing => cases h
  | fill c start => cases h
  | opened c start sigs => rfl

/-- Nothing goes on with an open action that is due. -/
theorem continues_of_due [LinearOrder τ] {o : OpenAction τ} {a : Arrival τ}
    (h : g.opened? window = some o) (hdue : o.deadline ≤ a.now) : g.continues window a = false := by
  cases g with
  | nothing => cases h
  | fill c start => cases h
  | opened c start sigs =>
    obtain rfl := Option.some.inj h
    cases a with
    | action d now => rfl
    | signal s now =>
      have hlate : ¬now < start + window := not_lt.mpr hdue
      rw [continues, goesOn, decide_eq_false hlate, Bool.and_false, Bool.false_and]

end Gathered

namespace Coalescer

variable {τ : Type} [Add τ] [LinearOrder τ] {m : Coalescer τ} {g : Gathered τ}

/-- **The coalescer holds what is gathered**, and nothing waits. -/
structure Gathers (m : Coalescer τ) (g : Gathered τ) : Prop where
  fill : m.fill = g.fill?
  opened : m.opened = g.opened? m.signalWindow
  backlog : m.backlog = []
  sound : g.IsSound m.signalWindow

theorem Gathers.isAwaiting (h : m.Gathers g) : m.isAwaiting = false := by
  rw [Coalescer.isAwaiting, h.opened]
  cases g <;> rfl

/-- What is held is settled as a group. -/
theorem Gathers.settleHeld (h : m.Gathers g) :
    m.settleHeld = ({ m with fill := none, opened := none }, { committed := g.actions }) := by
  rw [Coalescer.settleHeld, openYield, h.fill, h.opened]
  cases g <;> rfl

theorem Gathers.settled (h : m.Gathers g) :
    ({ m with fill := none, opened := none } : Coalescer τ).Gathers .nothing :=
  ⟨rfl, rfl, h.backlog, trivial⟩

/-- **The open action receives what goes on with it**, as long as it is not due. -/
theorem Gathers.receives (h : m.Gathers g) {s : SignalCandidate} {now : τ}
    (hdue : ∀ o, m.opened = some o → ¬o.deadline ≤ now) :
    g.continues m.signalWindow (.signal s now) = m.opened.any (receives · s now) := by
  rw [h.opened] at hdue ⊢
  cases g with
  | nothing => rfl
  | fill c start => rfl
  | opened c start sigs =>
    obtain ⟨hbears, -⟩ := h.sound
    have hlt : now < start + m.signalWindow := not_le.mp (hdue _ rfl)
    have hkinds : (Action.signal? { c.action with signals := sigs.map (·.1.signal) }
        s.signal.kind).isNone = !(sigs.map (·.1.signal.kind)).contains s.signal.kind := by
      rw [Bool.eq_iff_iff, Option.isNone_iff_eq_none, Action.signal?, List.find?_eq_none]
      simp only [Bool.not_eq_true', List.contains_eq_mem, decide_eq_false_iff_not, List.mem_map,
        beq_iff_eq]
      constructor
      · rintro hall ⟨t, ht, heq⟩
        exact hall _ ⟨t, ht, rfl⟩ heq
      · rintro hnot _ ⟨t, ht, rfl⟩ hkind
        exact hnot ⟨t, ht, hkind⟩
    simp only [Gathered.continues, goesOn, Gathered.opened?, Option.any_some, Coalescer.receives,
      hbears, hlt, hlt.le, hkinds, decide_true, Bool.true_and, Bool.and_true]
    rw [BEq.comm]

/-! ### One call -/

/-- **A result goes along with the grouping**: what was committed are the first groups of all that
has arrived, and the others are those of what is gathered by then and of what is still to come. -/
def Sorts (window : τ) (arrived : List (Arrival τ)) (r : Coalescer τ × Yield) : Prop :=
  ∃ g committed, r.2 = { committed := committed } ∧ r.1.signalWindow = window ∧ r.1.Gathers g ∧
    ∀ rest, grouping window (arrived ++ rest) = committed ++ grouping window (g.arrivals ++ rest)

/-- **The open action is settled** once it is due. -/
theorem Gathers.tick_of_due (h : m.Gathers g) {o : OpenAction τ} {now : τ} (ho : m.opened = some o)
    (hdue : o.deadline ≤ now) :
    m.tick now = ({ m with lastNow := later m.lastNow now, opened := none },
      { committed := g.actions }) := by
  have hdrain : drain { m with lastNow := later m.lastNow now, opened := none } now =
      ({ m with lastNow := later m.lastNow now, opened := none }, {}) := by
    rw [drain, h.backlog, drainList]
  have hstill : expire now { m with lastNow := later m.lastNow now, opened := none } =
      ({ m with lastNow := later m.lastNow now, opened := none }, {}) :=
    expire_of_not_due fun o ho => by cases ho
  have hsettle : o.settle = { committed := g.actions } := by
    have hopened := h.opened.symm.trans ho
    cases g with
    | nothing => cases hopened
    | fill c start => cases hopened
    | opened c start sigs =>
      obtain rfl := Option.some.inj hopened
      rfl
  rw [Coalescer.tick, expire_of_due (m := { m with lastNow := later m.lastNow now }) ho hdue
    (by rw [hdrain]), hdrain, hstill, hsettle]
  exact congrArg (Prod.mk _)
    ((Yield.append_ofEntries_nil _).trans (Yield.append_ofEntries_nil _))

/-- **Time goes by** until the next arrival: what is due is the first group, and nothing else is. -/
theorem Gathers.tick (h : m.Gathers g) (a : Arrival τ) :
    ∃ g' committed, (m.tick a.now).2 = { committed := committed } ∧
      (m.tick a.now).1.signalWindow = m.signalWindow ∧ (m.tick a.now).1.Gathers g' ∧
      (∀ o, (m.tick a.now).1.opened = some o → ¬o.deadline ≤ a.now) ∧
      ∀ rest, grouping m.signalWindow (g.arrivals ++ a :: rest) =
        committed ++ grouping m.signalWindow (g'.arrivals ++ a :: rest) := by
  by_cases hdue : ∃ o, m.opened = some o ∧ o.deadline ≤ a.now
  · obtain ⟨o, ho, hdue⟩ := hdue
    have hopened := h.opened.symm.trans ho
    rw [h.tick_of_due ho hdue]
    refine ⟨.nothing, g.actions, rfl, rfl, ⟨?_, rfl, h.backlog, trivial⟩, (fun _ ho => nomatch ho),
      fun rest => ?_⟩
    · exact h.fill.trans (Gathered.fill?_of_opened? hopened)
    · rw [List.append_cons]
      exact Gathered.grouping_concat h.sound (Gathered.continues_of_due hopened hdue) rest
  · have hnot : ∀ o, m.opened = some o → ¬o.deadline ≤ a.now := fun o ho hle => hdue ⟨o, ho, hle⟩
    have htick : m.tick a.now = ({ m with lastNow := later m.lastNow a.now }, {}) :=
      expire_of_not_due hnot
    rw [htick]
    exact ⟨g, [], rfl, rfl, ⟨h.fill, h.opened, h.backlog, h.sound⟩, hnot, fun rest => rfl⟩

/-- A fill goes on with a fill of the same element by taking its place. -/
theorem Gathers.refill {c d : ActionCandidate} {start now : τ} (h : m.Gathers (.fill d start))
    (hc : c.isMergeable = true) (hrefills : Arrival.refills d (.action c now) = true) :
    Sorts m.signalWindow [.action d start, .action c now] ({ m with fill := some c }, {}) := by
  refine ⟨.fill c now, [], rfl, rfl, ⟨rfl, h.opened, h.backlog, hc⟩, fun rest => ?_⟩
  have hgroups : grouping m.signalWindow (.action d start :: .action c now :: rest) = _ :=
    grouping_fill h.sound
  rw [List.head?_cons, Option.any_some, if_pos hrefills] at hgroups
  exact hgroups

/-- **A plain action is taken up.** -/
theorem Gathers.absorbAction (h : m.Gathers g) {c : ActionCandidate} {now : τ}
    (hc : (Arrival.action c now).IsPlain) :
    Sorts m.signalWindow (g.arrivals ++ [.action c now]) (m.absorbAction c now) := by
  obtain ⟨hawaiting, hsignals⟩ := hc
  have hgoes : g.continues m.signalWindow (.action c now) = _ := Gathered.continues_action c now
  rw [Coalescer.absorbAction, h.fill, ← hgoes]
  split
  · next hcontinues =>
    rw [hcontinues] at hgoes
    obtain ⟨hmergeable, hfill⟩ := Bool.and_eq_true_iff.mp hgoes.symm
    obtain ⟨d, start, rfl⟩ := Gathered.of_fill? hfill
    exact h.refill hmergeable hcontinues
  · next hcontinues =>
    have hgroups := Gathered.grouping_concat h.sound (Bool.eq_false_iff.mpr hcontinues)
    rw [h.settleHeld]
    dsimp only
    split
    · next hfill =>
      exact ⟨.fill c now, g.actions, rfl, rfl, ⟨rfl, rfl, h.backlog, hfill⟩, hgroups⟩
    · next hfill =>
      split
      · next hbears =>
        refine ⟨.opened c now [], g.actions, rfl, rfl, ⟨rfl, ?_, h.backlog, hbears, ?_⟩, hgroups⟩
        · simp [hawaiting, Gathered.opened?, ← hsignals]
        · exact suited_nil
      · next hbears =>
        refine ⟨.nothing, g.actions ++ [c.action], rfl, rfl, h.settled, fun rest => ?_⟩
        rw [hgroups, grouping_other (Bool.eq_false_iff.mpr hfill) (Bool.eq_false_iff.mpr hbears)
          hsignals, List.append_assoc]
        rfl

omit [Add τ] in
/-- A signal that no open action receives stands for itself. -/
theorem absorbSignal_of_apart (hfree : m.isAwaiting = false) {s : SignalCandidate} {now : τ}
    (happart : m.opened.any (Coalescer.receives · s now) = false) :
    m.absorbSignal s now =
      (m.settleHeld.1, m.settleHeld.2 ++ { committed := [s.standalone] }) := by
  rw [Coalescer.absorbSignal]
  simp only [hfree, Bool.false_eq_true, if_false]
  split
  · rfl
  · next o ho =>
    rw [ho, Option.any_some] at happart
    rw [if_neg (Bool.eq_false_iff.mp happart)]

/-- **A signal is taken up**, as long as the open action is not due. -/
theorem Gathers.absorbSignal (h : m.Gathers g) {s : SignalCandidate} {now : τ}
    (hdue : ∀ o, m.opened = some o → ¬o.deadline ≤ now) :
    Sorts m.signalWindow (g.arrivals ++ [.signal s now]) (m.absorbSignal s now) := by
  have hgoes := h.receives (s := s) hdue
  cases hcontinues : g.continues m.signalWindow (.signal s now) with
  | true =>
    rw [hcontinues, h.opened] at hgoes
    cases g with
    | nothing => cases hgoes
    | fill c start => cases hgoes
    | opened c start sigs =>
      obtain ⟨hbears, hsuited⟩ := h.sound
      rw [absorbSignal_of_receives h.opened rfl hgoes.symm]
      refine ⟨.opened c start (sigs ++ [(s, now)]), [], rfl, rfl,
        ⟨h.fill, ?_, h.backlog, hbears, hsuited.concat hcontinues⟩, fun rest => ?_⟩
      · simp [Gathered.opened?, Action.withSignal]
      · rw [Gathered.arrivals, Gathered.arrivals, block_concat]
        rfl
  | false =>
    rw [hcontinues] at hgoes
    rw [absorbSignal_of_apart h.isAwaiting hgoes.symm, h.settleHeld]
    refine ⟨.nothing, g.actions ++ [s.standalone], rfl, rfl, h.settled, fun rest => ?_⟩
    rw [Gathered.grouping_concat h.sound hcontinues, grouping_signal, List.append_assoc]
    rfl

/-- **One call** goes along with the grouping. -/
theorem Gathers.perform (h : m.Gathers g) {a : Arrival τ} (ha : a.IsPlain) :
    Sorts m.signalWindow (g.arrivals ++ [a]) (m.perform a.call) := by
  obtain ⟨g', committed, hyields, hwindow, hgathers, hdue, hgroups⟩ := h.tick a
  have habsorb : Sorts m.signalWindow (g'.arrivals ++ [a])
      ((m.tick a.now).1.absorb a.candidate a.now) := by
    rw [← hwindow]
    cases a with
    | action c now => exact hgathers.absorbAction ha
    | signal s now => exact hgathers.absorbSignal hdue
  obtain ⟨g'', more, hmore, hwindow', hgathers', hgroups'⟩ := habsorb
  have hperform : m.perform a.call = (((m.tick a.now).1.absorb a.candidate a.now).1,
      (m.tick a.now).2 ++ ((m.tick a.now).1.absorb a.candidate a.now).2) := by
    have hcall : m.perform a.call = m.feed a.candidate a.now := by cases a <;> rfl
    rw [hcall, feed]
    simp only [hyields, hgathers.isAwaiting, Bool.false_and, Bool.false_eq_true, if_false, take]
  rw [hperform]
  refine ⟨g'', committed ++ more, ?_, hwindow', hgathers', fun rest => ?_⟩
  · rw [hyields, hmore]
    rfl
  · have hrest := hgroups' rest
    rw [List.append_assoc, List.singleton_append] at hrest ⊢
    rw [hgroups, hrest, List.append_assoc]

/-! ### A run -/

/-- **A run** goes along with the grouping. -/
theorem Gathers.run (h : m.Gathers g) (fed : List (Arrival τ)) (hfed : ∀ a ∈ fed, a.IsPlain) :
    Sorts m.signalWindow (g.arrivals ++ fed) (m.run (fed.map Arrival.call)) := by
  induction fed generalizing m g with
  | nil =>
    refine ⟨g, [], rfl, rfl, h, fun rest => ?_⟩
    rw [List.append_nil, List.nil_append]
  | cons a fed ih =>
    obtain ⟨g', first, hfirst, hwindow, hgathers, hgroups⟩ := h.perform (hfed a List.mem_cons_self)
    obtain ⟨g'', second, hsecond, hwindow', hgathers', hgroups'⟩ :=
      ih hgathers fun b hb => hfed b (List.mem_cons_of_mem a hb)
    rw [hwindow] at hwindow' hgroups'
    refine ⟨g'', first ++ second, ?_, hwindow', hgathers', fun rest => ?_⟩
    · rw [List.map_cons, Coalescer.run, hfirst, hsecond]
      rfl
    · rw [List.append_cons, List.append_assoc (_ ++ [a]), hgroups, ← List.append_assoc, hgroups',
        List.append_assoc]

/-- Everything is settled: what is gathered is the last group. -/
theorem Gathers.flush (h : m.Gathers g) : m.flush.2 = { committed := g.actions } := by
  rw [Coalescer.flush, h.backlog, flushList]
  exact congrArg Prod.snd h.settleHeld

theorem gathers_fresh (signalWindow syncTimeout start : τ) :
    (fresh signalWindow syncTimeout start).Gathers .nothing :=
  ⟨rfl, rfl, rfl, trivial⟩

/-- **What is committed in the end are the groups** of what was fed. -/
theorem runToEnd_grouping (signalWindow syncTimeout start : τ) (fed : List (Arrival τ))
    (hfed : ∀ a ∈ fed, a.IsPlain) :
    (fresh signalWindow syncTimeout start).runToEnd (fed.map Arrival.call) =
      { committed := grouping signalWindow fed } := by
  have hrun : Sorts signalWindow fed
      ((fresh signalWindow syncTimeout start).run (fed.map Arrival.call)) :=
    (gathers_fresh signalWindow syncTimeout start).run fed hfed
  obtain ⟨g, committed, hyields, hwindow, hgathers, hgroups⟩ := hrun
  have hsound : g.IsSound signalWindow := hwindow ▸ hgathers.sound
  have hall : grouping signalWindow fed = committed ++ g.actions :=
    calc grouping signalWindow fed
        = grouping signalWindow (fed ++ []) := by rw [List.append_nil]
      _ = committed ++ grouping signalWindow (g.arrivals ++ []) := hgroups []
      _ = committed ++ (g.actions ++ grouping signalWindow []) :=
        congrArg (committed ++ ·) (Gathered.grouping_arrivals hsound fun a ha => by cases ha)
      _ = committed ++ g.actions := congrArg (committed ++ ·) (List.append_nil _)
  rw [runToEnd, hyields, hgathers.flush, hall]
  rfl

/-- A popup and a dialog come in time for a click, a download comes just too late, and two fills of
one element follow. -/
theorem runToEnd_grouping_of_click :
    let click : ActionCandidate := { action := { kind := .click, page := "page" } }
    let input (text : String) : ActionCandidate :=
      { action := { kind := .fill, page := "page", text := some text }
        key := some ⟨"p1", [], "e1"⟩ }
    let signal (kind : SignalKind) : SignalCandidate :=
      ⟨"page", { kind := kind }, { kind := .other kind.name, page := "page" }⟩
    let fed : List (Arrival ℕ) :=
      [.action click 0, .signal (signal .popup) 4, .signal (signal .dialog) 9,
        .signal (signal .download) 10, .action (input "a") 12, .action (input "ab") 13]
    (∀ a ∈ fed, a.IsPlain) ∧
      (fresh 10 20 0).runToEnd (fed.map Arrival.call) =
        { committed :=
            [{ click.action with signals := [(signal .popup).signal, (signal .dialog).signal] },
              (signal .download).standalone, (input "ab").action] } := by
  intro click input signal fed
  have hfed : ∀ a ∈ fed, a.IsPlain := by simp [fed, Arrival.IsPlain, click, input]
  refine ⟨hfed, (runToEnd_grouping 10 20 0 fed hfed).trans ?_⟩
  decide +kernel

end Coalescer

end Scribe
