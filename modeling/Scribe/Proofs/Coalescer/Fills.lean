import Scribe.Proofs.Coalescer.Course
import Mathlib.Data.List.Chain

/-!
# Fills of one element

Typing into an element comes as one fill after the other, each with all that the element holds by
then, and only the last of them is to be recorded. So no two fills of one key should be committed
next to each other. They are not, as long as a call commits them: a fill is held until something
else comes, and the next fill of its key replaces it, also when the two have waited behind an open
action and are worked off (`Scribe.Coalescer.IsParted`).

The end is different. What waits in the backlog when everything is settled is settled one by one,
and two fills of one key that follow each other there are both committed. This is the only way in
which it happens: `Scribe.Coalescer.runToEnd_fills` says, for every run, that the committed actions
are parted exactly if the backlog was. `Scribe.Coalescer.adjacent_fills_of_backlog` is such a run.
-/

namespace Scribe

/-! ### Fills of one key -/

/-- **Two candidates are apart**: they are not fills of one key. -/
def Candidate.Apart (c d : Candidate) : Prop :=
  ∀ a b, c = .action a → d = .action b → a.isMergeable → b.isMergeable → a.key ≠ b.key

namespace Ledger

variable {τ : Type}

/-- The candidates of what is settled and held, in order. -/
def ahead (l : Ledger τ) : List Candidate :=
  (l.settled ++ l.held.settled).map Entry.candidate

/-- **What is settled or held is parted**, and if its last is a fill, then it is still held. -/
structure IsParted (l : Ledger τ) : Prop where
  apart : l.ahead.IsChain Candidate.Apart
  held : ∀ a, l.ahead.getLast? = some (.action a) → a.isMergeable → l.held.fill? = some a

theorem isParted_blank : (blank : Ledger τ).IsParted :=
  ⟨.nil, fun _ h => by cases h⟩

/-- A ledger whose last open action is settled stays parted. -/
theorem IsParted.congr {l l' : Ledger τ} (h : l.IsParted) (hahead : l'.ahead = l.ahead)
    (hfill : l.held.fill? = none) : l'.IsParted where
  apart := by rw [hahead]; exact h.apart
  held a hlast ha := by
    rw [hahead] at hlast
    exact absurd (hfill.symm.trans (h.held a hlast ha)) (Option.some_ne_none a).symm

/-- **What comes next is apart** from the last, unless what is held takes it in. -/
theorem IsParted.apart_of_other [LE τ] [DecidableLE τ] {l : Ledger τ} (h : l.IsParted) {now : τ}
    {c d : Candidate} (hother : l.held.takesIn now d = false) (hc : c ∈ l.ahead.getLast?) :
    c.Apart d := by
  rintro a b rfl rfl ha hb hkey
  have hfill := h.held a hc ha
  simp [Held.takesIn, hb, hfill, hkey] at hother

/-- **In the end**, what was settled or held is parted from the backlog, and the backlog is as it
is. -/
theorem IsParted.outcome {l : Ledger τ} (h : l.IsParted) (hquiet : l.IsQuiet) :
    l.outcome.map Entry.candidate = l.ahead ++ l.waiting.map Entry.candidate ∧
      ((l.outcome.map Entry.candidate).IsChain Candidate.Apart ↔
        (l.waiting.map Entry.candidate).IsChain Candidate.Apart) := by
  have houtcome : l.outcome.map Entry.candidate = l.ahead ++ l.waiting.map Entry.candidate := by
    simp [Ledger.outcome, ahead, Function.comp_def]
  refine ⟨houtcome, ?_⟩
  rw [houtcome]
  refine ⟨fun hchain => (List.isChain_append.mp hchain).2.1, fun hchain => ?_⟩
  refine List.isChain_append.mpr ⟨h.apart, hchain, fun c hc d hd => ?_⟩
  -- something waits, so an action is open and nothing is held that is a fill
  rintro a b rfl rfl ha hb
  have hne : l.waiting ≠ [] := by
    rintro hnone
    simp [hnone] at hd
  obtain ⟨_, _, _, _, _, _, hheld, -⟩ := Held.of_awaiting (hquiet hne)
  have hfill := h.held a hc ha
  rw [hheld] at hfill
  cases hfill

end Ledger

/-- A fill that is taken up is held. -/
theorem Taken.fill? {τ : Type} [Add τ] {window : ActionCandidate → τ} {now : τ} {e : Entry}
    {es : List Entry} {held : Held τ} (h : Taken window now e es held) {a : ActionCandidate}
    (he : e.candidate = .action a) (ha : a.isMergeable) : held.fill? = some a := by
  cases h with
  | fill => cases he; rfl
  | opened bears => cases he; exact absurd ha (ActionCandidate.not_isMergeable bears)
  | action single => cases he; exact absurd ha (by simp [single])
  | signal => cases he

namespace Ledger

variable {τ : Type} [Add τ] [LE τ] [DecidableLE τ] {window : ActionCandidate → τ} {now : τ}
  {l l' : Ledger τ}

/-- **Every deed keeps what is settled or held parted.** -/
theorem Deed.isParted (h : Deed window now l l') (hl : l.IsParted) : l'.IsParted := by
  cases h with
  | arrive => exact ⟨hl.apart, hl.held⟩
  | expire => exact hl.congr (by simp [ahead, Held.settled]) rfl
  | @merge fed settled waiting c d n k replaced first second key =>
    -- the one fill stands where the other stood, and they have one key
    have hahead : ahead (⟨fed, settled, .fill d k (replaced ++ [(c, n)]) second, waiting⟩ :
        Ledger τ) = settled.map Entry.candidate ++ [.action d] := by
      simp [ahead, Held.settled, Entry.candidate]
    have hapart := hl.apart
    simp only [ahead, Held.settled, List.map_append, List.map_cons, List.map_nil,
      Entry.candidate] at hapart
    obtain ⟨hsettled, -, hlast⟩ := List.isChain_append.mp hapart
    refine ⟨?_, fun a ha _ => ?_⟩
    · rw [hahead]
      refine List.isChain_append.mpr ⟨hsettled, .singleton _, fun e he f hf => ?_⟩
      rintro a b rfl rfl ha hb
      simp only [List.head?_cons, Option.mem_some_iff, Candidate.action.injEq] at hf
      subst hf
      rw [← key]
      exact hlast _ he _ rfl a c rfl rfl ha first
    · rw [hahead, List.getLast?_concat] at ha
      cases ha
      rfl
  | @take fed settled waiting es e held next free other taken =>
    have hahead : ahead ⟨fed, settled ++ (held.settled ++ es), next, waiting⟩ =
        ahead ⟨fed, settled, held, e :: waiting⟩ ++ [e.candidate] := by
      have hes := congrArg (List.map Entry.candidate) taken.settled
      simp only [List.map_append, List.map_cons, List.map_nil, Entry.candidate_cut] at hes
      simp [ahead, ← hes]
    refine ⟨?_, fun a ha hmerge => ?_⟩
    · rw [hahead]
      refine List.isChain_append.mpr ⟨hl.apart, .singleton _, fun c hc d hd => ?_⟩
      obtain rfl : e.candidate = d := Option.some.inj hd
      exact hl.apart_of_other other hc
    · rw [hahead, List.getLast?_concat] at ha
      exact taken.fill? (Option.some.inj ha) hmerge
  | receive => exact hl.congr (by simp [ahead, Held.settled, Entry.candidate]) rfl
  | fulfil => exact hl.congr (by simp [ahead, Held.settled, Entry.candidate]) rfl

end Ledger

namespace Coalescer

variable {τ : Type} [Add τ] [LE τ] [DecidableLE τ] [LT τ] [DecidableLT τ]

/-- **Only what waits in the end can have two fills of one key next to each other.** The candidates
of the committed actions are some that are parted, and then those of the backlog at the end of the
calls; and they are parted exactly if the backlog was. -/
theorem runToEnd_fills (signalWindow syncTimeout start : τ) (calls : List (Call τ)) :
    let m := fresh signalWindow syncTimeout start
    let backlog := (m.run calls).1.backlog
    ∃ entries ahead, Account (calls.filterMap Call.candidate?) entries ∧
      (m.runToEnd calls).committed = entries.map Entry.committed ∧
      entries.map Entry.candidate = ahead ++ backlog ∧ ahead.IsChain Candidate.Apart ∧
      ((ahead ++ backlog).IsChain Candidate.Apart ↔ backlog.IsChain Candidate.Apart) := by
  intro m backlog
  obtain ⟨l, hl⟩ := exists_course (shows_fresh signalWindow syncTimeout start) isQuiet_blank calls
  have hparted : l.IsParted := hl.keep (fun _ _ _ _ hdeed => hdeed.isParted) Ledger.isParted_blank
  obtain ⟨hshows, hquiet⟩ := hl.shows_end
  obtain ⟨hcandidates, hiff⟩ := hparted.outcome hquiet
  rw [hcandidates, ← hshows.backlog] at hiff
  rw [← hshows.backlog] at hcandidates
  exact ⟨l.outcome, l.ahead, hl.account_outcome, by rw [hl.runToEnd]; rfl, hcandidates,
    hparted.apart, hiff⟩

/-- A click awaits a download that does not come, and two fills of one element wait behind it when
everything is settled: both are committed. -/
theorem adjacent_fills_of_backlog :
    let click : ActionCandidate :=
      { action := { kind := .click, page := "page" }, awaiting := some .download }
    let input (text : String) : ActionCandidate :=
      { action := { kind := .fill, page := "page", text := some text }
        key := some ⟨"p1", [], "e1"⟩ }
    let calls : List (Call ℕ) :=
      [.action click 0, .action (input "a") 1, .action (input "ab") 2]
    (calls.map Call.now).Pairwise (· ≤ ·) ∧ (input "a").isMergeable ∧ (input "ab").isMergeable ∧
      (input "a").key.isSome ∧ (input "a").key = (input "ab").key ∧
      ((fresh 1 5 0).runToEnd calls).committed =
        [{ click.action with incompleteSignals := [.download] }, (input "a").action,
          (input "ab").action] := by
  refine ⟨by decide, rfl, rfl, rfl, rfl, ?_⟩
  decide +kernel

end Coalescer

end Scribe
