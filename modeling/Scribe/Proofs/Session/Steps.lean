import Scribe.Proofs.Session.Turns

/-!
# Steps of a session

A run is taken apart into steps (`Scribe.Session.steps`): a whole stop is one that begins, waits for
its consumer, and ends. To wait until the queue has been worked off is no step of its own, only what
comes into the queue and the items that the consumer takes meanwhile are.
`Scribe.Session.run_steps` says that a run does what its steps do.

What handles an event or meets a deadline changes only what is recorded, unless it fails
(`Scribe.Session.SameStanding`), and a session that has failed stays so
(`Scribe.Session.state_run_of_failed`).
-/

namespace Scribe

namespace Session

variable {τ : Type} {s t : Session τ}

/-! ### Standing -/

/-- **Nothing but the book has changed.** -/
structure SameStanding (s t : Session τ) : Prop where
  state : t.state = s.state
  started : t.started = s.started
  consuming : t.consuming = s.consuming
  queue : t.queue = s.queue
  scheduled : t.scheduled = s.scheduled

/-- What is settled changes the book alone, unless it fails. -/
theorem sameStanding_afterYield {m : Coalescer τ} {y : Yield}
    (h : (s.afterYield m y).state ≠ .failed) : s.SameStanding (s.afterYield m y) := by
  rw [afterYield] at h ⊢
  split at h
  · exact absurd rfl h
  · next hrefused =>
    rw [if_neg hrefused]
    rw [publish] at h ⊢
    split at h
    · next hempty =>
      rw [if_pos hempty]
      exact ⟨rfl, rfl, rfl, rfl, rfl⟩
    · next hempty =>
      rw [if_neg hempty]
      split at h
      · exact absurd rfl h
      · exact ⟨rfl, rfl, rfl, rfl, rfl⟩

section

variable [Add τ] [LE τ] [DecidableLE τ] [LT τ] [DecidableLT τ]

theorem sameStanding_handle {e : Option Event} (h : (s.handle e).state ≠ .failed) :
    s.SameStanding (s.handle e) := by
  cases e with
  | none => exact absurd rfl h
  | some e =>
    obtain ⟨hstate, hstarted, hconsuming, hqueue, hscheduled⟩ := sameStanding_afterYield h
    exact ⟨hstate, hstarted, hconsuming, hqueue, hscheduled⟩

theorem sameStanding_timeOut (h : s.timeOut.state ≠ .failed) : s.SameStanding s.timeOut := by
  rw [timeOut] at h ⊢
  split at h
  · next hidle =>
    rw [if_pos hidle]
    exact ⟨rfl, rfl, rfl, rfl, rfl⟩
  · next hidle =>
    rw [if_neg hidle]
    obtain ⟨hstate, hstarted, hconsuming, hqueue, hscheduled⟩ := sameStanding_afterYield h
    exact ⟨hstate, hstarted, hconsuming, hqueue, hscheduled⟩

/-- What the consumer takes changes no state, unless it fails. -/
theorem state_consume (h : s.consume.state ≠ .failed) : s.consume.state = s.state := by
  rw [consume] at h ⊢
  split at h
  · next hidle => rw [if_pos hidle]
  · next hidle =>
    rw [if_neg hidle]
    split at h
    · rfl
    · rfl
    · exact (sameStanding_handle h).state

/-- **A session that has failed** stays so. -/
theorem state_perform_of_failed (h : s.state = .failed) (m : Move τ) :
    (s.perform m).state = .failed := by
  by_contra hne
  refine hne ?_
  cases m with
  | post e =>
    rw [perform_post, if_pos (by rw [h]; rfl)]
    exact h
  | postElsewhere e =>
    rw [perform_postElsewhere, if_pos (by rw [h]; rfl)]
    exact h
  | land =>
    rw [perform, land]
    split <;> exact h
  | start =>
    rw [perform, start]
    split
    · exact h
    · rw [if_pos (by rw [h]; rfl)]
      exact h
  | consume => exact (state_consume hne).trans h
  | timeOut => exact (sameStanding_timeOut hne).state.trans h
  | setClock now => exact h
  | beginStop =>
    rw [perform, if_pos (by rw [h]; rfl)]
    exact h
  | endStop =>
    rw [perform]
    split
    · rw [endStop, if_pos (by rw [h]; rfl)]
      exact h
    · exact h
  | stop =>
    rw [perform, stop, h]
    exact h

theorem state_run_of_failed (h : s.state = .failed) (moves : List (Move τ)) :
    (s.run moves).state = .failed := by
  induction moves generalizing s with
  | nil => exact h
  | cons m rest ih => exact ih (state_perform_of_failed h m)

/-! ### Steps -/

/-- **The moves of which a move consists**: a whole stop begins, waits for the consumer, and ends.
-/
def Move.parts (s : Session τ) : Move τ → List (Move τ)
  | .stop =>
    match s.state with
    | .stopped | .stopping => []
    | .failed => [.endStop]
    | .idle | .recording =>
      .beginStop :: (List.replicate s.beginStop.scheduled.length .land ++
        (List.replicate s.beginStop.landAll.queue.length .consume ++ [.endStop]))
  | m => [m]

/-- **The steps of a run**: its moves, each whole stop taken apart. -/
def steps (s : Session τ) : List (Move τ) → List (Move τ)
  | [] => []
  | m :: rest => m.parts s ++ (s.perform m).steps rest

theorem state_consumeTimes (n : ℕ) :
    (consumeTimes n s).state = s.state ∨ (consumeTimes n s).state = .failed := by
  induction n generalizing s with
  | zero => exact Or.inl rfl
  | succ n ih =>
    by_cases hfailed : s.consume.state = .failed
    · right
      rw [consumeTimes, ← run_replicate_consume]
      exact state_run_of_failed hfailed _
    · rw [consumeTimes, ← state_consume hfailed]
      exact ih

theorem state_handleQueued (queue : List QueueItem) :
    (s.handleQueued queue).state = s.state ∨ (s.handleQueued queue).state = .failed := by
  induction queue generalizing s with
  | nil => exact Or.inl rfl
  | cons item rest ih =>
    cases item with
    | stop => exact ih (s := { s with queue := rest })
    | posted e =>
      rw [handleQueued]
      split
      · next hfailed => exact Or.inr (by simpa using hfailed)
      · next hfailed =>
        have hhandled := sameStanding_handle (s := { s with queue := rest }) (e := e)
          (by simpa using hfailed)
        have hrest := ih (s := ({ s with queue := rest } : Session τ).handle e)
        rw [hhandled.state] at hrest
        exact hrest

/-- A stop that has begun is under way, unless something failed. -/
theorem state_beginStop : s.beginStop.state = .stopping ∨ s.beginStop.state = .failed := by
  rw [beginStop]
  dsimp only
  split
  · exact Or.inl rfl
  · exact state_handleQueued s.queue

/-- **A move does what its parts do**, one after the other. -/
theorem run_parts (h : s.IsConsistent) (m : Move τ) : s.run (m.parts s) = s.perform m := by
  cases m with
  | stop =>
    have hwhole (hhalted : s.state.isHalted = false) :
        s.run (.beginStop :: (List.replicate s.beginStop.scheduled.length .land ++
            (List.replicate s.beginStop.landAll.queue.length .consume ++ [.endStop]))) =
          s.beginStop.landAll.settle.endStop := by
      obtain ⟨-, -, hend⟩ := isConsistent_beginStop h hhalted
      have hidle := consuming_settle_landAll hend
      have hbegun : s.beginStop.landAll.state = .stopping ∨ s.beginStop.landAll.state = .failed :=
        state_beginStop
      have hstate : s.beginStop.landAll.settle.state = .stopping ∨
          s.beginStop.landAll.settle.state = .failed := by
        rcases state_consumeTimes (s := s.beginStop.landAll) s.beginStop.landAll.queue.length with
          hstate | hfailed
        · rw [settle, hstate]
          exact hbegun
        · exact Or.inr hfailed
      have hbegin : s.perform .beginStop = s.beginStop := by
        rw [perform, if_neg (by simp [hhalted])]
      rw [run, hbegin, run_append, run_replicate_land, run_append, run_replicate_consume]
      change s.beginStop.landAll.settle.perform .endStop = _
      rw [perform, if_pos (canEndStop_iff.mpr ⟨hstate, hidle⟩)]
    cases hstate : s.state with
    | stopped => simp only [perform, stop, Move.parts, hstate, run]
    | stopping => simp only [perform, stop, Move.parts, hstate, run]
    | failed =>
      have hcan := canEndStop_iff.mpr ⟨Or.inr hstate, h.governed.failed hstate⟩
      simp only [perform, stop, Move.parts, hstate, run, hcan, if_true, endStop, beq_self_eq_true]
    | idle =>
      simp only [perform, stop, Move.parts, hstate]
      exact hwhole (by rw [hstate]; rfl)
    | recording =>
      simp only [perform, stop, Move.parts, hstate]
      exact hwhole (by rw [hstate]; rfl)
  | post e | postElsewhere e | land | start | consume | timeOut | setClock now | beginStop |
    endStop => rfl

/-- **A run does what its steps do.** -/
theorem run_steps (h : s.IsConsistent) (moves : List (Move τ)) :
    s.run (s.steps moves) = s.run moves := by
  induction moves generalizing s with
  | nil => rfl
  | cons m rest ih => rw [steps, run_append, run_parts h, ih (isConsistent_perform h m), run]

theorem ne_stop_of_mem_steps {moves : List (Move τ)} {m : Move τ} (h : m ∈ s.steps moves) :
    m ≠ .stop := by
  induction moves generalizing s with
  | nil => cases h
  | cons first rest ih =>
    rcases List.mem_append.mp h with h | h
    · rintro rfl
      cases first with
      | stop =>
        rw [Move.parts] at h
        split at h <;> simp at h
      | post e | postElsewhere e | land | start | consume | timeOut | setClock now | beginStop |
        endStop => simp [Move.parts] at h
    · exact ih h

end

end Session

end Scribe
