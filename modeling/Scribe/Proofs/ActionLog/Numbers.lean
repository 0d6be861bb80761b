import Mathlib.Data.List.Basic
import Scribe.ActionLog

/-!
# The numbers of a log

The actions of a log are numbered, and the numbers grow. What an action must have to be let in is
that its number is not less than the next one, which is the one after the last. As the numbers grow,
the last is the greatest, and not to be less than the next one is to be greater than all of them
(`Scribe.ActionLog.nextSequence_le_iff`).

* `Scribe.IsAscending` – lists of actions with growing numbers;
* `Scribe.ActionLog.append_eq` – what becomes of an action that is appended;
* `Scribe.ActionLog.isAscending_append` – the numbers go on growing.
-/

namespace Scribe

/-- **Actions with growing numbers**, none of them negative. -/
structure IsAscending (actions : List Action) : Prop where
  /-- Every action has a number. -/
  committed : ∀ a ∈ actions, 0 ≤ a.sequence
  /-- The numbers grow. -/
  growing : actions.Pairwise (·.sequence < ·.sequence)

theorem isAscending_append_singleton {actions : List Action} {a : Action} :
    IsAscending (actions ++ [a]) ↔
      IsAscending actions ∧ 0 ≤ a.sequence ∧ ∀ b ∈ actions, b.sequence < a.sequence := by
  constructor
  · rintro ⟨hcommitted, hgrowing⟩
    obtain ⟨hinit, -, hlast⟩ := List.pairwise_append.mp hgrowing
    simp only [List.mem_append, List.mem_singleton] at hcommitted hlast
    exact ⟨⟨fun b hb => hcommitted b (.inl hb), hinit⟩, hcommitted a (.inr rfl),
      fun b hb => hlast b hb a rfl⟩
  · rintro ⟨⟨hcommitted, hgrowing⟩, ha, hlast⟩
    refine ⟨fun b hb => ?_, List.pairwise_append.mpr ⟨hgrowing, List.pairwise_singleton _ _, ?_⟩⟩
    · rcases List.mem_append.mp hb with hb | hb
      · exact hcommitted b hb
      · rwa [List.mem_singleton.mp hb]
    · simpa using hlast

namespace ActionLog

variable {log : ActionLog} {a : Action}

theorem nextSequence_concat (actions : List Action) (a : Action) (frozen : Bool) :
    ({ actions := actions ++ [a], frozen := frozen } : ActionLog).nextSequence =
      a.sequence + 1 := by
  simp [nextSequence, last?]

/-- The next number is greater than the numbers of a log, and not negative. -/
theorem nextSequence_le_iff (hlog : IsAscending log.actions) {n : Int} :
    log.nextSequence ≤ n ↔ 0 ≤ n ∧ ∀ b ∈ log.actions, b.sequence < n := by
  obtain ⟨actions, frozen⟩ := log
  rcases List.eq_nil_or_concat' actions with rfl | ⟨init, last, rfl⟩
  · simp [nextSequence, last?]
  -- the last number is the greatest, so being greater than it is being greater than all
  obtain ⟨-, hlast, hbefore⟩ := isAscending_append_singleton.mp hlog
  rw [nextSequence_concat]
  constructor
  · intro hn
    refine ⟨by omega, fun b hb => ?_⟩
    rcases List.mem_append.mp hb with hb | hb
    · have := hbefore b hb
      omega
    · obtain rfl := List.mem_singleton.mp hb
      omega
  · rintro ⟨-, hn⟩
    have := hn last (by simp)
    omega

/-! ### Appending -/

/-- **An action as the log would hold it**: under its own number, or the next one if it has none. -/
def numbered (log : ActionLog) (a : Action) : Action :=
  { a with sequence := if 0 ≤ a.sequence then a.sequence else log.nextSequence }

/-- **What becomes of an action that is appended.** A frozen log refuses it, and so does any other
log if it has a number and this is less than the next one. Otherwise it goes to the end. -/
theorem append_eq (log : ActionLog) (a : Action) :
    log.append a =
      if log.frozen then .error .frozen
      else if 0 ≤ a.sequence ∧ a.sequence < log.nextSequence then
        .error (.regressed a.sequence log.nextSequence)
      else .ok (log.numbered a, { log with actions := log.actions ++ [log.numbered a] }) := by
  have hnumbered : (if a.isCommitted then a else { a with sequence := log.nextSequence }) =
      log.numbered a := by
    by_cases ha : 0 ≤ a.sequence <;> simp [numbered, Action.isCommitted, ha]
  rw [append, hnumbered]
  by_cases ha : 0 ≤ a.sequence <;> simp [Action.isCommitted, ha]

/-- An action that is let in gets a number that is not less than the next one. -/
theorem nextSequence_le_numbered (h : ¬(0 ≤ a.sequence ∧ a.sequence < log.nextSequence)) :
    log.nextSequence ≤ (log.numbered a).sequence := by
  by_cases ha : 0 ≤ a.sequence
  · have hle : log.nextSequence ≤ a.sequence := by
      by_contra hlt
      exact h ⟨ha, Int.not_le.mp hlt⟩
    simpa [numbered, ha] using hle
  · simp [numbered, ha]

/-- **The numbers go on growing.** -/
theorem isAscending_append {b : Action} {log' : ActionLog} (hlog : IsAscending log.actions)
    (happend : log.append a = .ok (b, log')) : IsAscending log'.actions := by
  rw [append_eq] at happend
  split at happend
  · cases happend
  split at happend
  · cases happend
  next hnot =>
    cases happend
    obtain ⟨hnonneg, hlt⟩ := (nextSequence_le_iff hlog).mp (nextSequence_le_numbered hnot)
    exact isAscending_append_singleton.mpr ⟨hlog, hnonneg, hlt⟩

/-- An action whose number is greater than all before it is appended as it is. -/
theorem append_of_lt (hlog : IsAscending log.actions) (hfrozen : log.frozen = false)
    (ha : 0 ≤ a.sequence) (hlt : ∀ b ∈ log.actions, b.sequence < a.sequence) :
    log.append a = .ok (a, { log with actions := log.actions ++ [a] }) := by
  have hnext : log.nextSequence ≤ a.sequence := (nextSequence_le_iff hlog).mpr ⟨ha, hlt⟩
  have hsame : log.numbered a = a := by simp [numbered, ha]
  rw [append_eq, if_neg (by simp [hfrozen]), if_neg (by omega), hsame]

end ActionLog

end Scribe
