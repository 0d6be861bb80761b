import Scribe.Browser.Launcher

/-!
# What an act of a launcher comes to

An act ends in a result or in a fault, and leaves a launcher either way. `Scribe.Launcher.outcome`
is the two together, and the lemmas here take it apart along the way acts are put together: one act
after another (`Scribe.Launcher.outcome_bind`), an act whose faults are dealt with
(`Scribe.Launcher.outcome_tryCatch`), and a call to the engine (`Scribe.Launcher.outcome_call`).
-/

namespace Scribe.Launcher

/-- **What an act comes to**: how it ends, and the launcher then. -/
def outcome {α : Type} (act : LauncherM α) (l : Launcher) : Except BrowserFault α × Launcher :=
  act.run.run l

variable {α β : Type}

/-- One act after the other. -/
theorem outcome_bind (act : LauncherM α) (next : α → LauncherM β) (l : Launcher) :
    outcome (act >>= next) l =
      match outcome act l with
      | (.ok a, l') => outcome (next a) l'
      | (.error f, l') => (.error f, l') := by
  change ExceptT.bindCont next (act l).1 (act l).2 = match (act l : Except BrowserFault α × _) with
    | (.ok a, l') => outcome (next a) l'
    | (.error f, l') => (.error f, l')
  obtain ⟨_ | _, _⟩ := (act l : Except BrowserFault α × Launcher) <;> rfl

/-- An act that returns after another one: that one returned as well. -/
theorem outcome_bind_ok {act : LauncherM α} {next : α → LauncherM β} {l l' : Launcher} {b : β}
    (h : outcome (act >>= next) l = (.ok b, l')) :
    ∃ a l₁, outcome act l = (.ok a, l₁) ∧ outcome (next a) l₁ = (.ok b, l') := by
  rw [outcome_bind] at h
  generalize outcome act l = r at h
  obtain ⟨_ | a, l₁⟩ := r
  · cases h
  · exact ⟨a, l₁, rfl, h⟩

/-- An act whose faults are dealt with. -/
theorem outcome_tryCatch (act : LauncherM α) (handler : BrowserFault → LauncherM α)
    (l : Launcher) :
    outcome (tryCatch act handler) l =
      match outcome act l with
      | (.ok a, l') => (.ok a, l')
      | (.error f, l') => outcome (handler f) l' := by
  simp only [outcome, tryCatch, tryCatchThe, MonadExceptOf.tryCatch, ExceptT.tryCatch,
    ExceptT.run_mk, StateT.run_bind]
  generalize hr : (StateT.run act.run l : Except BrowserFault α × Launcher) = r
  obtain ⟨_ | _, _⟩ := r
  · simp only [ExceptT.run] at hr
    rw [hr]
    rfl
  · simp only [ExceptT.run] at hr
    rw [hr]
    rfl

/-- A call is noted, however it turns out. -/
theorem outcome_call (e : Engine) (c : Call) (l : Launcher) :
    outcome (call e c) l =
      (match e.reply c with
        | none => .ok ()
        | some f => .error (.call f), { l with calls := l.calls ++ [c] }) := by
  change outcome (match e.reply c with
      | none => pure ()
      | some f => throw (.call f) : LauncherM Unit) { l with calls := l.calls ++ [c] } = _
  cases e.reply c <;> rfl

end Scribe.Launcher
