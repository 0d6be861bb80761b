import Scribe.Proofs.Session.Run

/-!
# The scope of a recording

Whatever moves a session makes, its log is well scoped (`Scribe.Session.run_wellScoped`). The stream
of candidates is in scope by what the observer knows of the pages, the committed actions are by
their account, and the log is since aliases are one for one.
-/

namespace Scribe

namespace Session

variable {τ : Type} {s : Session τ} {stream : List Candidate} {settled : List Entry}

theorem Recorded.account (h : s.Recorded stream settled) :
    ∃ waiting, Account stream (settled ++ waiting) := by
  obtain ⟨waiting, ⟨held, -, hacc, -⟩, -⟩ := h.books
  exact ⟨held.toList ++ waiting, hacc⟩

theorem Recorded.isObservable (h : s.Recorded stream settled) {e : Entry} (he : e ∈ settled) :
    e.IsObservable := by
  obtain ⟨waiting, hacc⟩ := h.account
  exact hacc.isObservable h.observed.observable (List.mem_append_left _ he)

/-- An action of the log is the committed action of an entry, under its aliases. -/
theorem Recorded.exists_entry (h : s.Recorded stream settled) {b : Action}
    (hb : b ∈ s.log.actions) : ∃ e ∈ settled, s.names.Binds e.committed b := by
  obtain ⟨i, hi⟩ := List.mem_iff_getElem?.mp hb
  obtain ⟨a, ha, hab⟩ := forall₂_getElem? h.published.logged.binds hi
  rw [List.getElem?_map, Option.map_eq_some_iff] at ha
  obtain ⟨e, he, rfl⟩ := ha
  exact ⟨e, List.mem_iff_getElem?.mpr ⟨i, he⟩, hab⟩

/-- **The log is in scope.** -/
theorem Recorded.inScope (h : s.Recorded stream settled) :
    Scoped (s.log.actions.map Action.use) := by
  obtain ⟨waiting, hacc⟩ := h.account
  have hentries := hacc.inScope h.observed.observable h.observed.inScope
  rw [List.map_append] at hentries
  have hsettled := hentries.of_append
  refine h.published.logged.inScope ?_
  rw [List.map_map]
  exact hsettled

/-- Only popups have pages in a log. -/
theorem Recorded.popup_of_signal (h : s.Recorded stream settled) {b : Action} {t : Signal}
    (hb : b ∈ s.log.actions) (ht : t ∈ b.signals) (hpopup : t.popup.isSome) : t.kind = .popup := by
  obtain ⟨e, he, hbinds⟩ := h.exists_entry hb
  obtain ⟨i, hi⟩ := List.mem_iff_getElem?.mp ht
  obtain ⟨u, hu, hut⟩ := forall₂_getElem? hbinds.signals hi
  have hunbound := Entry.isUnbound_committed (h.isObservable he) u
    (List.mem_iff_getElem?.mpr ⟨i, hu⟩)
  rw [hut.kind]
  refine hunbound.popup ?_
  have hmap := congrArg Option.isSome hut.popup
  simpa [hpopup] using hmap

/-- **The log of a recording is well scoped.** -/
theorem Recorded.wellScoped (h : s.Recorded stream settled) : WellScoped s.log.actions :=
  h.inScope.wellScoped h.published.logged.root fun _ hb _ ht hpopup =>
    h.popup_of_signal hb ht hpopup

/-- **Whatever is posted, and whenever the session is started and stopped, its log is well scoped**:
it begins by opening the root page, each page that it names is introduced exactly once, by opening
it or as a popup, no action comes before the introduction of its page, and none after its closing.
-/
theorem run_wellScoped [Add τ] [LE τ] [DecidableLE τ] [LT τ] [DecidableLT τ]
    (testIdAttribute : String) (signalWindow syncTimeout start : τ) (clock : Clock τ)
    (moves : List (Move τ)) :
    WellScoped
      ((fresh testIdAttribute signalWindow syncTimeout start clock).run moves).log.actions := by
  have hconsistent := isConsistent_run
    (isConsistent_fresh testIdAttribute signalWindow syncTimeout start clock) moves
  obtain ⟨stream, settled, hrecorded⟩ := hconsistent.recorded
  exact hrecorded.wellScoped

end Session

end Scribe
