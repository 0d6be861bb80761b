import Scribe.Proofs.Coalescer.Ledger
import Mathlib.Data.List.Perm.Subperm

/-!
# What there is to commit

A coalescer in any state, also one that no requests lead to, has a **stock**: the fill, the open
action, and what waits, each as the action that it comes to by itself
(`Scribe.Coalescer.stock`). Actions are taken **bare** there (`Scribe.Action.bare`), since what an
action receives on its way does not make it another one.

Taking up a candidate adds it to the stock, and commits some of it. Nothing comes from anywhere
else, and nothing is committed and kept at once (`Scribe.Coalescer.stock_absorb`). What becomes of a
signal is said by `Scribe.Coalescer.Resolves`, case by case.
-/

namespace Scribe

/-- **A bare action**: what was done, without what it set off or was expected to set off. -/
def Action.bare (a : Action) : Action :=
  { a with signals := [], incompleteSignals := [] }

/-- The bare action that is committed if a candidate stands for itself. -/
def Candidate.bare? : Candidate → Option Action
  | .action c => some c.action.bare
  | .signal c => some c.standalone.bare
  | .foreign => none

theorem Yield.bare_append (y z : Yield) : (y ++ z).committed.map Action.bare =
    y.committed.map Action.bare ++ z.committed.map Action.bare :=
  List.map_append

namespace Coalescer

variable {τ : Type} {m : Coalescer τ}

/-! ### The stock -/

/-- What is held, as bare actions. -/
def heldStock (m : Coalescer τ) : List Action :=
  (m.fill.map (·.action.bare)).toList ++ (m.opened.map (·.action.bare)).toList

/-- **What there is to commit**, as bare actions: the fill, the open action, and what waits. -/
def stock (m : Coalescer τ) : List Action :=
  m.heldStock ++ m.backlog.filterMap Candidate.bare?

theorem length_stock_le (m : Coalescer τ) :
    m.stock.length ≤ m.fill.isSome.toNat + m.opened.isSome.toNat + m.backlog.length := by
  have hbacklog : (m.backlog.filterMap Candidate.bare?).length ≤ m.backlog.length :=
    List.length_filterMap_le _ _
  rw [stock, heldStock, List.length_append, List.length_append]
  cases m.fill <;> cases m.opened <;> simp <;> omega

theorem bare_settle (o : OpenAction τ) : o.settle.committed.map Action.bare = [o.action.bare] := by
  rw [OpenAction.settle]
  split <;> rfl

/-- What is held is settled, and no more. -/
theorem bare_settleHeld (m : Coalescer τ) :
    m.settleHeld.2.committed.map Action.bare = m.heldStock := by
  rw [settleHeld, Yield.bare_append, heldStock, openYield]
  cases m.fill <;> cases m.opened <;> simp [bare_settle]

/-- Where what is held is settled, another action comes between it and what waits. -/
theorem stock_between (m : Coalescer τ) (a : Action) :
    (m.settleHeld.2.committed.map Action.bare ++
      a :: m.backlog.filterMap Candidate.bare?).Subperm (a :: m.stock) := by
  rw [bare_settleHeld]
  exact List.perm_middle.subperm

theorem refused_settle (o : OpenAction τ) : o.settle.refused = false := by
  rw [OpenAction.settle]
  split <;> rfl

theorem refused_settleHeld (m : Coalescer τ) : m.settleHeld.2.refused = false := by
  rw [settleHeld, Yield.refused_append, openYield]
  cases m.opened with
  | none => rfl
  | some o => exact refused_settle o

/-! ### Signals -/

/-- **What becomes of a signal** that is taken up, and whether it releases the backlog. -/
inductive Resolves (m : Coalescer τ) (s : SignalCandidate) : Bool → Coalescer τ × Yield → Prop
  /-- It waits behind all that waits already. -/
  | waits (awaiting : m.isAwaiting = true) :
      Resolves m s false ({ m with backlog := m.backlog ++ [.signal s] }, {})
  /-- It stands for itself. -/
  | alone (free : m.isAwaiting = false) :
      Resolves m s false (m.settleHeld.1, m.settleHeld.2 ++ { committed := [s.standalone] })
  /-- The open action receives it and stays open. -/
  | received {o : OpenAction τ} (opened : m.opened = some o) :
      Resolves m s false
        ({ m with opened := some { o with action := o.action.withSignal s.signal } }, {})
  /-- The open action receives it, awaited just this one, and is settled. -/
  | fulfilled {o : OpenAction τ} (opened : m.opened = some o)
      (awaited : o.awaiting = some s.signal.kind) :
      Resolves m s true
        { m with opened := some ⟨o.action.withSignal s.signal, o.deadline, none⟩ }.settleHeld

namespace Resolves

variable {s : SignalCandidate} {released : Bool} {r : Coalescer τ × Yield}

/-- The backlog is released when nothing is awaited any more. -/
theorem released_eq (h : m.Resolves s released r) :
    released = (m.isAwaiting && !r.1.isAwaiting) := by
  cases h with
  | waits => exact (Bool.and_not_self _).symm
  | alone hfree => rw [hfree, Bool.false_and]
  | @received o ho =>
    have hstays : m.isAwaiting = ({ m with
        opened := some { o with action := o.action.withSignal s.signal } } :
          Coalescer τ).isAwaiting := by
      rw [isAwaiting, isAwaiting, ho]
      rfl
    rw [← hstays, Bool.and_not_self]
  | @fulfilled o ho hawaited =>
    have hawaiting : m.isAwaiting = true := by
      rw [isAwaiting, ho, Option.any_some, hawaited]
      rfl
    rw [hawaiting]
    rfl

theorem refused (h : m.Resolves s released r) : r.2.refused = false := by
  cases h with
  | waits => rfl
  | alone => rw [Yield.refused_append, refused_settleHeld]; rfl
  | received => rfl
  | fulfilled => exact refused_settleHeld _

/-- What an action has received does not count. -/
theorem stock_received {o : OpenAction τ} (ho : m.opened = some o) (awaiting : Option SignalKind) :
    ({ m with opened := some ⟨o.action.withSignal s.signal, o.deadline, awaiting⟩ } :
      Coalescer τ).stock = m.stock := by
  simp only [Coalescer.stock, heldStock, ho]
  rfl

/-- A signal that is taken up waits, is committed by itself, or is put down to the open action. -/
theorem stock (h : m.Resolves s released r) :
    (r.2.committed.map Action.bare ++ r.1.stock).Subperm (s.standalone.bare :: m.stock) := by
  cases h with
  | waits =>
    change (m.heldStock ++ (m.backlog ++ [Candidate.signal s]).filterMap Candidate.bare?).Subperm _
    rw [List.filterMap_append, ← List.append_assoc]
    exact List.perm_append_comm.subperm
  | alone =>
    rw [Yield.bare_append, List.append_assoc]
    exact m.stock_between s.standalone.bare
  | @received o ho =>
    rw [stock_received ho]
    exact (List.sublist_cons_self _ _).subperm
  | @fulfilled o ho =>
    have hsettled (n : Coalescer τ) : n.heldStock ++ n.settleHeld.1.stock = n.stock := rfl
    rw [bare_settleHeld, hsettled, stock_received ho]
    exact (List.sublist_cons_self _ _).subperm

end Resolves

section

variable [LE τ] [DecidableLE τ]

/-- Whether a candidate is the signal that the open action awaits. -/
def releases (m : Coalescer τ) (c : Candidate) (now : τ) : Bool :=
  match c with
  | .signal s => m.opened.any fun o => receives o s now && o.awaiting == some s.signal.kind
  | _ => false

theorem resolves_absorbSignal (m : Coalescer τ) (s : SignalCandidate) (now : τ) :
    m.Resolves s (m.releases (.signal s) now) (m.absorbSignal s now) := by
  have hrefused : m.Resolves s false
      (if m.isAwaiting then ({ m with backlog := m.backlog ++ [.signal s] }, {})
        else (m.settleHeld.1, m.settleHeld.2 ++ { committed := [s.standalone] })) := by
    split
    · next hawaiting => exact .waits hawaiting
    · next hfree => exact .alone (Bool.eq_false_iff.mpr hfree)
  rw [absorbSignal]
  split
  · next hnone =>
    have hreleases : m.releases (.signal s) now = false := by rw [releases, hnone]; rfl
    rw [hreleases]
    exact hrefused
  · next o ho =>
    have hreleases : m.releases (.signal s) now =
        (receives o s now && o.awaiting == some s.signal.kind) := by rw [releases, ho]; rfl
    rw [hreleases]
    cases hreceives : receives o s now with
    | false => exact hrefused
    | true =>
      rw [if_pos rfl, Bool.true_and]
      dsimp only
      cases hawaited : o.awaiting == some s.signal.kind with
      | false => exact .received ho
      | true => exact .fulfilled ho (beq_iff_eq.mp hawaited)

/-- Nothing is released as long as nothing is awaited. -/
theorem releases_of_free (h : m.isAwaiting = false) (c : Candidate) (now : τ) :
    m.releases c now = false := by
  cases c with
  | action c => rfl
  | foreign => rfl
  | signal s =>
    rw [releases, Option.any_eq_false]
    intro o ho
    have hnone : o.awaiting = none := by simpa [isAwaiting, ho] using h
    rw [hnone]
    exact Bool.and_false _

end

/-! ### Candidates -/

variable [Add τ]

/-- An action that is taken up is committed or held, what was held is committed or held on, and a
fill that gives way is neither. -/
theorem stock_absorbAction (m : Coalescer τ) (c : ActionCandidate) (now : τ) :
    ((m.absorbAction c now).2.committed.map Action.bare ++ (m.absorbAction c now).1.stock).Subperm
      (c.action.bare :: m.stock) := by
  have hbetween := m.stock_between c.action.bare
  rw [absorbAction]
  split
  · refine (List.subperm_cons _).mpr (List.Sublist.subperm ?_)
    exact (List.sublist_append_right _ _).append (.refl _)
  · dsimp only
    split
    · exact hbetween
    · split
      · exact hbetween
      · rw [Yield.bare_append, List.append_assoc]
        exact hbetween

/-- **What is taken up is accounted for**: of the candidate and of what there was, nothing is
committed or kept twice. -/
theorem stock_absorb [LE τ] [DecidableLE τ] (m : Coalescer τ) (c : Candidate) (now : τ) :
    ((m.absorb c now).2.committed.map Action.bare ++ (m.absorb c now).1.stock).Subperm
      (c.bare?.toList ++ m.stock) := by
  cases c with
  | action c => exact m.stock_absorbAction c now
  | signal s => exact (m.resolves_absorbSignal s now).stock
  | foreign => exact List.Subperm.refl _

end Coalescer

end Scribe
