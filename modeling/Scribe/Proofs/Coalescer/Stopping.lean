import Scribe.Proofs.Coalescer.Requests

/-!
# Stopping at once, or after the wait

A recording is stopped while an action is open. Its deadline may have come: then one may stop at
once, or first tell the time and stop after that. Either way all is committed, and in the same
order. But the first settles the backlog candidate by candidate, each with what it leaves held, and
the second works it off as every tick does. So what is committed is the same exactly if no two
neighbours of the backlog come together (`Scribe.Coalescer.serveAll_flush_iff`). If two do, stopping
at once tears them apart: two fills of one key that only the last would survive, or an action and
the signal that it set off (`Scribe.Coalescer.flush_of_waiting_popup`).
-/

namespace Scribe.Coalescer

variable {τ : Type} [Add τ] [LinearOrder τ]

/-- **Stopping at once commits what is committed after the wait**, whatever was asked before and
whatever waits, exactly if no two neighbours come together in the part of the backlog that a tick
works off; and then it gives the same warnings, too. Otherwise it commits more actions. -/
theorem serveAll_flush_iff (signalWindow syncTimeout start : τ) (requests : List (Request τ)) :
    let m := ((fresh signalWindow syncTimeout start).serveAll requests).1
    ∀ o now, m.opened = some o → o.deadline ≤ now →
      let separate := (workedOff m.window now m.backlog).IsChain
        fun c d => unites m.window now c d = false
      let atOnce := m.flush.2
      let afterWait := (m.tick now).2 ++ (m.tick now).1.flush.2
      (atOnce.committed = afterWait.committed ↔ separate) ∧ (separate → atOnce = afterWait) ∧
        (¬separate → afterWait.committed.length < atOnce.committed.length) ∧
        atOnce.refused = false ∧ afterWait.refused = false := by
  intro m o now ho hdue separate atOnce afterWait
  obtain ⟨-, settled, -, hbooks⟩ := (books_fresh signalWindow syncTimeout start).serveAll requests
  obtain ⟨l, hshows, -⟩ := hbooks.exists_ledger
  have hsame : Yield.SameIff separate afterWait atOnce := tick_flush hshows ho hdue
  obtain ⟨hwaited, -⟩ := (hbooks.tick now).append fun _ hbooks => hbooks.flush
  exact ⟨eq_comm.trans hsame.committed_eq_iff, fun h => (hsame.eq h).symm, hsame.less,
    hbooks.flush.1, hwaited⟩

/-- A fill waits behind a click whose download does not come: stopping at once and after the wait
commit the same. -/
theorem serveAll_flush_of_waiting_fill :
    let click : ActionCandidate :=
      { action := { kind := .click, page := "page" }, awaiting := some .download }
    let input : ActionCandidate :=
      { action := { kind := .fill, page := "page", text := some "a" }
        key := some ⟨"p1", [], "e1"⟩ }
    let m := ((fresh 1 5 0).serveAll
      [.call (.action click 0), .call (.action input 1)] : Coalescer ℕ × Yield).1
    m.opened = some ⟨click.action, 5, some .download⟩ ∧
      m.flush.2 = (m.tick 6).2 ++ (m.tick 6).1.flush.2 := by
  intro click input m
  have ho : m.opened = some ⟨click.action, 5, some .download⟩ := by decide +kernel
  have hworked : workedOff m.window 6 m.backlog = [.action input] := by decide +kernel
  obtain ⟨-, hsame, -⟩ := serveAll_flush_iff 1 5 0
    [.call (.action click 0), .call (.action input 1)] _ 6 ho (by decide)
  exact ⟨ho, hsame (hworked ▸ .singleton _)⟩

/-- A click of another page waits behind one whose download does not come, and then the popup that
it opened. Stopping at once commits the popup by itself, and after the wait it is put down to the
click. -/
theorem flush_of_waiting_popup :
    let download : ActionCandidate :=
      { action := { kind := .click, page := "page" }, awaiting := some .download }
    let click : ActionCandidate := { action := { kind := .click, page := "page1" } }
    let signal : Signal := { kind := .popup, popup := some "page2" }
    let popup : SignalCandidate :=
      ⟨"page1", signal, { kind := .waitForPopup, page := "page1", signals := [signal] }⟩
    let m := ((fresh 1 5 0).serveAll [.call (.action download 0), .call (.action click 1),
      .call (.signal popup 2)] : Coalescer ℕ × Yield).1
    let missing := { download.action with incompleteSignals := [.download] }
    m.opened = some ⟨download.action, 5, some .download⟩ ∧
      m.flush.2.committed = [missing, click.action, popup.standalone] ∧
      ((m.tick 5).2 ++ (m.tick 5).1.flush.2).committed =
        [missing, click.action.withSignal signal] := by
  refine ⟨?_, ?_, ?_⟩
  · decide +kernel
  · decide +kernel
  · decide +kernel

end Scribe.Coalescer
