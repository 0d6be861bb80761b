import Scribe.Proofs.Session.Scope

/-!
# The output of a recording

At any moment the output of a session holds, for each language, the program of the log and of the
aliases as they are then. Once a stop has come to its end, both the log and the output are closed,
and no move changes either any more. `Scribe.Session.run_output` states this for every run.
-/

namespace Scribe

/-! ### The programs of a catalog -/

/-- A program of a catalog is found by its tag, if no two emitters share one. -/
theorem find?_renderAll {c : Program.Catalog} (h : c.tags.Nodup) {e : Program.Emitter}
    (he : e ∈ c.emitters) (actions : List Action) (aliases : AliasTable) :
    (renderAll c actions aliases).find? (·.tag == e.tag) =
      some ⟨e.tag, e.name, e.render actions aliases⟩ := by
  obtain ⟨emitters⟩ := c
  simp only [Program.Catalog.tags] at h
  simp only [renderAll] at he ⊢
  induction emitters with
  | nil => cases he
  | cons f rest ih =>
    rw [List.map_cons, List.nodup_cons] at h
    obtain ⟨hf, hrest⟩ := h
    rcases List.mem_cons.mp he with rfl | he
    · simp
    · have hne : f.tag ≠ e.tag := fun htag => hf (htag ▸ List.mem_map_of_mem he)
      rw [List.map_cons, List.find?_cons_of_neg (by simpa using hne)]
      exact ih hrest he

theorem nodup_tags_standard : Program.Catalog.standard.tags.Nodup := by
  decide

/-- A frozen output ignores updates. -/
theorem Output.update_of_frozen {o : Output} (h : o.frozen = true) (actions : List Action)
    (aliases : AliasTable) : o.update actions aliases = (o, {}) := by
  rw [update, if_pos h]

namespace Session

variable {τ : Type} {s : Session τ}

/-- **The output holds the programs** of the log, each under its tag. -/
theorem Recorded.get_output {stream : List Candidate} {settled : List Entry}
    (h : s.Recorded stream settled) {e : Program.Emitter}
    (he : e ∈ Program.Catalog.standard.emitters) :
    s.output.get e.tag = .ok ⟨e.tag, e.name, e.render s.log.actions s.names.table⟩ := by
  have hsource : s.output.source? e.tag =
      some ⟨e.tag, e.name, e.render s.log.actions s.names.table⟩ := by
    rw [Output.source?, h.published.sources]
    exact find?_renderAll nodup_tags_standard he _ _
  rw [Output.get, hsource]

/-! ### After the end -/

section

variable [Add τ] [LE τ] [DecidableLE τ] [LT τ] [DecidableLT τ]

/-- Whether a move brings a stop to its end. A stop that finds another one under way does not. -/
def completesStop (s : Session τ) : Move τ → Bool
  | .stop => s.state != .stopping
  | .endStop => s.canEndStop
  | _ => false

theorem isClosed_of_completesStop (h : s.IsConsistent) {m : Move τ}
    (hm : s.completesStop m = true) : (s.perform m).IsClosed := by
  cases m with
  | stop => exact (isConsistent_stop h).2 (by simpa [completesStop] using hm)
  | endStop =>
    have hcan : s.canEndStop = true := hm
    obtain ⟨hstate, hidle⟩ := canEndStop_iff.mp hcan
    rw [perform, if_pos hcan]
    refine (isConsistent_endStop h hidle fun hstopped => ?_).2
    rcases hstate with hstate | hstate <;> rw [hstate] at hstopped <;> cases hstopped
  | post e | postElsewhere e | land | start | consume | timeOut | setClock now | beginStop =>
    cases hm

omit [Add τ] [LE τ] [DecidableLE τ] [LT τ] [DecidableLT τ] in
theorem freeze_of_isClosed (h : s.IsClosed) :
    s.freeze.log = s.log ∧ s.freeze.output = s.output := by
  obtain ⟨hlog, houtput⟩ := h
  constructor
  · simp [freeze, ActionLog.freeze, ← hlog]
  · simp [freeze, Output.freeze, ← houtput]

/-- **No move changes a closed log**, nor a closed output. -/
theorem perform_of_isClosed (h : s.IsConsistent) (hclosed : s.IsClosed) (m : Move τ) :
    (s.perform m).log = s.log ∧ (s.perform m).output = s.output := by
  have hidle : s.consuming = false := h.governed.idle hclosed.1
  have hover := h.governed.ended hclosed.1
  cases m with
  | post e =>
    rw [perform_post]
    split <;> exact ⟨rfl, rfl⟩
  | postElsewhere e =>
    rw [perform_postElsewhere]
    split
    · exact ⟨rfl, rfl⟩
    split <;> exact ⟨rfl, rfl⟩
  | land =>
    rw [perform, land]
    split <;> exact ⟨rfl, rfl⟩
  | start =>
    rw [perform, start]
    split
    · exact ⟨rfl, rfl⟩
    split <;> exact ⟨rfl, rfl⟩
  | consume =>
    rw [perform, consume, if_pos (by simp [hidle])]
    exact ⟨rfl, rfl⟩
  | timeOut =>
    rw [perform, timeOut, if_pos (by simp [hidle])]
    exact ⟨rfl, rfl⟩
  | setClock now => exact ⟨rfl, rfl⟩
  | beginStop =>
    rw [perform, if_pos (by rcases hover with hs | hs <;> rw [hs] <;> rfl)]
    exact ⟨rfl, rfl⟩
  | endStop =>
    rw [perform]
    split
    · next hcan =>
      -- only a failed session may end a stop again, and it closes what is closed
      have hfailed : s.state = .failed := by
        rcases hover with hs | hs
        · simp [canEndStop, hs] at hcan
        · exact hs
      rw [endStop]
      simp only [hfailed, beq_self_eq_true, if_true]
      exact freeze_of_isClosed hclosed
    · exact ⟨rfl, rfl⟩
  | stop =>
    rw [perform, stop]
    rcases hover with hs | hs
    · rw [hs]
      exact ⟨rfl, rfl⟩
    · rw [hs]
      exact freeze_of_isClosed hclosed

/-- **No run changes a closed log**, nor a closed output. -/
theorem run_of_isClosed (h : s.IsConsistent) (hclosed : s.IsClosed) (moves : List (Move τ)) :
    (s.run moves).log = s.log ∧ (s.run moves).output = s.output := by
  induction moves generalizing s with
  | nil => exact ⟨rfl, rfl⟩
  | cons m rest ih =>
    obtain ⟨hlog, houtput⟩ := perform_of_isClosed h hclosed m
    have hclosed' : (s.perform m).IsClosed := by
      rw [IsClosed, hlog, houtput]
      exact hclosed
    obtain ⟨hlog', houtput'⟩ := ih (isConsistent_perform h m) hclosed'
    exact ⟨hlog'.trans hlog, houtput'.trans houtput⟩

/-- **The output is that of the log at any moment, until a stop is complete.** For every language it
holds the program of the log and the aliases as they are. When a stop has come to its end, the log
and the output are closed; no later move changes either, and an update of the output does nothing.
-/
theorem run_output (testIdAttribute : String) (signalWindow syncTimeout start : τ)
    (clock : Clock τ) (moves : List (Move τ)) :
    let s := (fresh testIdAttribute signalWindow syncTimeout start clock).run moves
    (∀ e ∈ Program.Catalog.standard.emitters,
        s.output.get e.tag = .ok ⟨e.tag, e.name, e.render s.log.actions s.names.table⟩) ∧
      ∀ m, s.completesStop m = true →
        (s.perform m).log.frozen = true ∧ (s.perform m).output.frozen = true ∧
          ∀ later, ((s.perform m).run later).log = (s.perform m).log ∧
            ((s.perform m).run later).output = (s.perform m).output ∧
            ∀ actions aliases, ((s.perform m).run later).output.update actions aliases =
              (((s.perform m).run later).output, {}) := by
  intro s
  have hconsistent : s.IsConsistent := isConsistent_run
    (isConsistent_fresh testIdAttribute signalWindow syncTimeout start clock) moves
  obtain ⟨stream, settled, hrecorded⟩ := hconsistent.recorded
  refine ⟨fun e he => hrecorded.get_output he, fun m hm => ?_⟩
  have hclosed := isClosed_of_completesStop hconsistent hm
  refine ⟨hclosed.1, hclosed.2, fun later => ?_⟩
  obtain ⟨hlog, houtput⟩ := run_of_isClosed (isConsistent_perform hconsistent m) hclosed later
  refine ⟨hlog, houtput, fun actions aliases => Output.update_of_frozen ?_ actions aliases⟩
  rw [houtput]
  exact hclosed.2

end

/-- A page is opened and the session is stopped, while something else is posted by another thread:
the log stays, though that comes into the queue behind the end. -/
theorem run_output_of_stop :
    let s := (fresh "data-testid" 1 5 0 (.still 0) : Session ℕ).run
      [.start, .post (some ⟨"p1", 0, false, .opened none⟩), .postElsewhere none]
    s.completesStop .stop = true ∧ (s.perform .stop).log.frozen = true ∧
      ((s.perform .stop).run [.land, .consume, .stop]).log = (s.perform .stop).log := by
  intro s
  have hstop : s.completesStop .stop = true := rfl
  obtain ⟨hlog, -, hlater⟩ := (run_output "data-testid" 1 5 0 (.still 0)
    [.start, .post (some ⟨"p1", 0, false, .opened none⟩), .postElsewhere none]).2 .stop hstop
  exact ⟨hstop, hlog, (hlater [.land, .consume, .stop]).1⟩

end Session

end Scribe
