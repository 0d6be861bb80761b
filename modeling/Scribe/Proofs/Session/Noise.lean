import Scribe.Proofs.Coalescer.Ticks
import Scribe.Proofs.Session.Turns
import Mathlib.Algebra.Order.Group.Nat

/-!
# Noise and timers

Some events are **noise** (`Scribe.Observer.IsNoise`): the observer makes nothing of them. Still
they are handled at some time, and so they tell the coalescer the time, as its timer does. This
should not change what is recorded, and it does not, as long as no action is opened then that had to
wait behind another (`Scribe.Coalescer.Releases`): `Scribe.Session.Padded` says which turns may be
put between those of a recording, and `Scribe.Session.log_padded` that the log stays the same.

What waits behind an action that awaits a signal is worked off when this action expires, and an
action that is opened then has its deadline counted from that moment. So if the time is told before
the next event, it may close before a signal comes that it would have received otherwise
(`Scribe.Session.log_ne_of_mousemove`).
-/

namespace Scribe

/-! ### Noise -/

/-- **Noise**: events of which the observer makes nothing. -/
inductive Observer.IsNoise (o : Observer) (e : Event) : Prop
  /-- A probe caused it. -/
  | synthetic (h : e.synthetic = true)
  /-- The mouse or the focus moved. -/
  | movement (aim : Aim) (what : Gesture) (h : e.what = .gesture aim what)
      (hwhat : what = .mousemove ∨ what = .focus ∨ what = .blur)
  /-- It happened on a page that is not known or has been closed, and opened no page. -/
  | elsewhere (hopen : o.isOpen e.page = false) (hopened : ∀ url, e.what ≠ .opened url)
      (hpopup : ∀ page url, e.what ≠ .popup page url)
  /-- A page was opened that is known already. -/
  | reopened (url : Option String) (h : e.what = .opened url) (hknown : o.isKnown e.page = true)
  /-- A page opened one that is known already. -/
  | sameAgain (page : String) (url : Option String) (h : e.what = .popup page url)
      (hknown : o.isKnown page = true)

/-- **Nothing is made of noise**, and nothing is learnt from it. -/
theorem Observer.IsNoise.observe {o : Observer} {e : Event} (h : o.IsNoise e) :
    o.observe e = ([], o) := by
  rw [Observer.observe]
  split
  · rfl
  next hnatural =>
  rcases h with h | ⟨aim, what, h, hwhat⟩ | ⟨hopen, hopened, hpopup⟩ | ⟨url, h, hknown⟩ |
    ⟨page, url, h, hknown⟩
  · exact absurd h hnatural
  · have hgesture : o.onGesture e.page aim what = none := by
      simp only [Observer.onGesture, Option.bind_eq_bind, Option.bind_eq_none_iff]
      intro _ _ _ _ _ _ _ haction
      rcases hwhat with rfl | rfl | rfl <;> cases haction
    simp only [h, hgesture]
    split <;> rfl
  · split
    · next url h => exact absurd h (hopened url)
    · next page url h => exact absurd h (hpopup page url)
    · rw [if_pos (by simp [hopen])]
  · simp [h, Observer.onOpened, hknown]
  · simp [h, Observer.onPopup, hknown]

namespace Session

variable {τ : Type} [AddCommMonoid τ] [LinearOrder τ] {s t : Session τ}

omit [AddCommMonoid τ] [LinearOrder τ] in
/-- Whether a turn is noise. A tick always is. -/
def Turn.IsNoise (o : Observer) : Turn τ → Prop
  | event e _ => o.IsNoise e
  | tick _ => True

omit [AddCommMonoid τ] [LinearOrder τ] in
theorem Turn.IsNoise.observed {o : Observer} {t : Turn τ} (h : t.IsNoise o) :
    t.observed o = ([], o) := by
  cases t with
  | event e now => exact h.observe
  | tick now => rfl

/-- **Turns are padded with noise**, from a session on that takes the longer list of them. What is
put in releases nothing that waits before the next of the other turns. -/
inductive Padded : Session τ → List (Turn τ) → List (Turn τ) → Prop
  | nil {s : Session τ} : Padded s [] []
  | keep {s : Session τ} {t : Turn τ} {base padded : List (Turn τ)}
      (rest : Padded (s.run t.moves) base padded) : Padded s (t :: base) (t :: padded)
  | insert {s : Session τ} {t : Turn τ} {base padded : List (Turn τ)} (noise : t.IsNoise s.observer)
      (quiet : ¬s.coalescer.Releases t.now (base.head?.map Turn.now))
      (rest : Padded (s.run t.moves) base padded) : Padded s base (t :: padded)

theorem Padded.sublist {base padded : List (Turn τ)} (h : Padded s base padded) :
    base.Sublist padded := by
  induction h with
  | nil => exact .slnil
  | keep _ ih => exact ih.cons_cons _
  | insert _ _ _ ih => exact ih.cons _

/-! ### Being ahead by some turns -/

/-- **Candidates that are fed** to a coalescer and to one that is ahead of it come to the same. -/
theorem feedAll_of_isAhead {m n : Coalescer τ} {y : Yield} {now : τ}
    (h : Coalescer.IsAhead (some now) m n y) (hy : y.refused = false) (stream : List Candidate) :
    feedAll m now stream = ((feedAll n now stream).1, y ++ (feedAll n now stream).2) := by
  cases stream with
  | nil => exact h
  | cons c rest =>
    have hrefused : (y ++ (n.feed c now).2).refused = (n.feed c now).2.refused := by
      rw [Yield.refused_append, hy, Bool.false_or]
    simp only [feedAll, h.feed hy c, hrefused]
    split
    · rfl
    · simp only [Yield.append_assoc]

/-- **A session is ahead of another**: it has committed what the other will commit in its next turn,
or in the end. -/
structure IsAhead (next : Option τ) (s t : Session τ) : Prop where
  base : s.AtWork
  padded : t.AtWork
  observer : s.observer = t.observer
  yield : ∃ y : Yield, y.refused = false ∧ Coalescer.IsAhead next s.coalescer t.coalescer y ∧
    commit s.names s.log y.committed = (t.names, t.log, none)

theorem IsAhead.of_sameRecord (hs : s.AtWork) (ht : t.AtWork) (h : s.SameRecord t)
    (next : Option τ) : IsAhead next s t := by
  refine ⟨hs, ht, h.observer, {}, rfl, ?_, ?_⟩
  · rw [h.coalescer]
    exact .refl next _
  · rw [h.names, h.log]
    rfl

/-- **In a turn that both take**, the two meet. -/
theorem IsAhead.keep {turn : Turn τ} (h : IsAhead (some turn.now) s t) (next : Option τ) :
    IsAhead next (s.run turn.moves) (t.run turn.moves) := by
  obtain ⟨hbase, hpadded, hobserver, y, hy, hahead, hcommit⟩ := h
  obtain ⟨hbase', hobserver₁, hcoalescer₁, -, hcommit₁⟩ := hbase.turn turn
  obtain ⟨hpadded', hobserver₂, hcoalescer₂, -, hcommit₂⟩ := hpadded.turn turn
  rw [hobserver] at hobserver₁ hcoalescer₁ hcommit₁
  rw [feedAll_of_isAhead hahead hy] at hcoalescer₁ hcommit₁
  -- the one commits in one go what the other has committed in two
  have hcommitted := hcommit₁.symm.trans ((commit_append hcommit _).trans hcommit₂)
  simp only [Prod.mk.injEq] at hcommitted
  exact .of_sameRecord hbase' hpadded' ⟨hobserver₁.trans hobserver₂.symm,
    hcoalescer₁.trans hcoalescer₂.symm, hcommitted.1, hcommitted.2.1⟩ next

variable [IsOrderedCancelAddMonoid τ]

/-- **A turn of noise** leaves it ahead. -/
theorem IsAhead.insert {next : Option τ} (h : IsAhead next s t) {turn : Turn τ}
    (hnoise : turn.IsNoise t.observer) (hle : ∀ now ∈ next, turn.now ≤ now)
    (hquiet : ¬t.coalescer.Releases turn.now next) :
    IsAhead next s (t.run turn.moves) := by
  obtain ⟨hbase, hpadded, hobserver, y, hy, hahead, hcommit⟩ := h
  obtain ⟨hwork, hcommits⟩ := hpadded.turn turn
  obtain ⟨hobserver', hcoalescer, hrefused, hcommit'⟩ := hnoise.observed ▸ hcommits
  obtain ⟨stream, settled, hrecorded⟩ := hpadded.isOpen.recorded
  obtain ⟨l, hshows, -⟩ := hrecorded.books.exists_ledger
  refine ⟨hbase, hwork, hobserver.trans hobserver'.symm, y ++ (t.coalescer.tick turn.now).2, ?_, ?_,
    (commit_append hcommit _).trans hcommit'⟩
  · rw [Yield.refused_append, hy, Bool.false_or]
    exact hrefused
  · rw [hcoalescer]
    exact hahead.tick hshows hrefused hle hquiet

end Session

end Scribe
