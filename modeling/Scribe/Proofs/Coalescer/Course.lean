import Scribe.Proofs.Coalescer.Books

/-!
# The course of a run

A run of a coalescer passes from ledger to ledger, one call at a time. `Scribe.Coalescer.Course`
keeps the ledgers between the calls. Every run has a course (`Scribe.Coalescer.exists_course`), and

* what every deed keeps holds in the end if it held in the beginning
  (`Scribe.Coalescer.Course.keep`);
* a course can be cut in two before any call (`Scribe.Coalescer.Course.split`), so that what was
  held before this call is found again in what was settled in the end;
* once everything is settled, the run has yielded the entries of `Scribe.Ledger.outcome`
  (`Scribe.Coalescer.Course.runToEnd`).
-/

namespace Scribe

/-- **What a ledger comes to** when everything is settled. -/
def Ledger.outcome {τ : Type} (l : Ledger τ) : List Entry :=
  l.settled ++ (l.held.settled ++ l.waiting.map Entry.cut)

/-- **A ledger with nothing in it.** -/
def Ledger.blank {τ : Type} : Ledger τ :=
  ⟨[], [], .nothing, []⟩

namespace Coalescer

variable {τ : Type} [Add τ] [LE τ] [DecidableLE τ] [LT τ] [DecidableLT τ]

omit [Add τ] [LE τ] [DecidableLE τ] [LT τ] [DecidableLT τ] in
/-- The time of a call. -/
def Call.now : Call τ → τ
  | action _ now | signal _ now | tick now => now

/-- **A call follows deeds** at its time. -/
theorem perform_reaches {m : Coalescer τ} {l : Ledger τ} (h : m.Shows l) (hquiet : l.IsQuiet)
    (c : Call τ) : ∃ l', Reaches m.window c.now l c.candidate?.toList (m.perform c) l' ∧
      l'.IsQuiet := by
  cases c with
  | action c now => exact feed_reaches h rfl hquiet (.action c l.fed.length) rfl now
  | signal s now => exact feed_reaches h rfl hquiet (.standalone s l.fed.length) rfl now
  | tick now => exact tick_reaches h rfl hquiet now

/-- **The course of a run**, through the ledgers between its calls. -/
inductive Course : Coalescer τ → Ledger τ → List (Call τ) → Ledger τ → Prop
  | nil {m : Coalescer τ} {l : Ledger τ} (shows : m.Shows l) (quiet : l.IsQuiet) :
      Course m l [] l
  | cons {m : Coalescer τ} {l l₁ l' : Ledger τ} {c : Call τ} {rest : List (Call τ)}
      (shows : m.Shows l) (quiet : l.IsQuiet)
      (first : Reaches m.window c.now l c.candidate?.toList (m.perform c) l₁)
      (further : Course (m.perform c).1 l₁ rest l') : Course m l (c :: rest) l'

/-- **Every run has a course.** -/
theorem exists_course {m : Coalescer τ} {l : Ledger τ} (h : m.Shows l) (hquiet : l.IsQuiet)
    (calls : List (Call τ)) : ∃ l', Course m l calls l' := by
  induction calls generalizing m l with
  | nil => exact ⟨l, .nil h hquiet⟩
  | cons c rest ih =>
    obtain ⟨l₁, hfirst, hquiet₁⟩ := perform_reaches h hquiet c
    obtain ⟨l', hrest⟩ := ih hfirst.shows hquiet₁
    exact ⟨l', .cons h hquiet hfirst hrest⟩

omit [LE τ] [DecidableLE τ] [Add τ] [LT τ] [DecidableLT τ] in
theorem shows_fresh (signalWindow syncTimeout start : τ) :
    (fresh signalWindow syncTimeout start).Shows .blank :=
  ⟨rfl, rfl, rfl, fun _ he => absurd he List.not_mem_nil⟩

omit [LE τ] [DecidableLE τ] [Add τ] [LT τ] [DecidableLT τ] in
theorem isQuiet_blank : (Ledger.blank : Ledger τ).IsQuiet :=
  fun hne => absurd rfl hne

namespace Course

variable {m : Coalescer τ} {l l' : Ledger τ} {calls before after : List (Call τ)}

theorem shows_start (h : Course m l calls l') : m.Shows l ∧ l.IsQuiet := by
  cases h with
  | nil hshows hquiet => exact ⟨hshows, hquiet⟩
  | cons hshows hquiet => exact ⟨hshows, hquiet⟩

theorem shows_end (h : Course m l calls l') : (m.run calls).1.Shows l' ∧ l'.IsQuiet := by
  induction h with
  | nil hshows hquiet => exact ⟨hshows, hquiet⟩
  | cons _ _ _ _ ih => exact ih

theorem fed (h : Course m l calls l') : l'.fed = l.fed ++ calls.filterMap Call.candidate? := by
  induction h with
  | nil => simp
  | @cons _ _ _ _ c _ _ _ hfirst _ ih =>
    rw [ih, hfirst.fed]
    cases hc : c.candidate? <;> simp [hc]

/-- A run yields the entries that it settles. -/
theorem yields (h : Course m l calls l') :
    ∃ further, l'.settled = l.settled ++ further ∧ (m.run calls).2 = .ofEntries further := by
  induction h with
  | nil => exact ⟨[], by simp, rfl⟩
  | cons _ _ hfirst _ ih =>
    obtain ⟨first, hsettled, hr⟩ := hfirst.yields
    obtain ⟨second, hsettled', hr'⟩ := ih
    refine ⟨first ++ second, by rw [hsettled', hsettled, List.append_assoc], ?_⟩
    rw [run, hr, hr', Yield.ofEntries_append]

/-- **What every deed keeps**, a run keeps. -/
theorem keep {P : Ledger τ → Prop} (h : Course m l calls l')
    (hstep : ∀ (window : ActionCandidate → τ) (now : τ) (k k' : Ledger τ),
      Ledger.Deed window now k k' → P k → P k') (hl : P l) : P l' := by
  induction h with
  | nil => exact hl
  | cons _ _ hfirst _ ih => exact ih (hfirst.deeds.keep (hstep _ _) hl)

theorem account (h : Course m l calls l') (hl : Account l.fed l.entries) :
    Account l'.fed l'.entries :=
  h.keep (P := fun l => Account l.fed l.entries) (fun _ _ _ _ hdeed => hdeed.account) hl

/-- **A course is cut in two.** -/
theorem split (h : Course m l (before ++ after) l') :
    ∃ l₁, Course m l before l₁ ∧ Course (m.run before).1 l₁ after l' := by
  induction before generalizing m l with
  | nil => exact ⟨l, .nil h.shows_start.1 h.shows_start.2, h⟩
  | cons c rest ih =>
    cases h with
    | cons hshows hquiet hfirst hfurther =>
      obtain ⟨l₁, hrest, hafter⟩ := ih hfurther
      exact ⟨l₁, .cons hshows hquiet hfirst hrest, hafter⟩

/-- **What a run yields when everything is settled.** -/
theorem runToEnd (h : Course m .blank calls l') : m.runToEnd calls = .ofEntries l'.outcome := by
  obtain ⟨further, hsettled, hyields⟩ := h.yields
  obtain rfl : l'.settled = further := hsettled
  rw [Coalescer.runToEnd, hyields, flush_yields h.shows_end.1, ← Yield.ofEntries_append]
  rfl

/-- What a run yields in the end accounts for what was fed. -/
theorem account_outcome (h : Course m .blank calls l') :
    Account (calls.filterMap Call.candidate?) l'.outcome := by
  have hend := Ledger.account_end (h.account .nil) h.shows_end.1.fresh
  rwa [h.fed] at hend

end Course

end Coalescer

end Scribe
