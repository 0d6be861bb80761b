import Scribe.Proofs.Session.Queue

/-!
# What is posted is handled

A post that returns has put what was posted into the queue, or, when it comes from another thread,
has scheduled it to be put there. So what a session has accepted (`Scribe.Session.accepted`) need
not come into its queue in that order, nor ahead of its end, and only what does is handed over.

What its own thread posts comes into the queue at once. What other threads post comes in the order
of these posts, but something else may **overtake** it (`Scribe.Session.Overtakes`): a post of the
own thread, and then the two are handled the other way round, or the end, and then it is not handled
at all. `Scribe.Session.run_handled` says that this is all there is to it: a session that has
stopped has handed over just what it accepted, in order, if and only if nothing was overtaken.
-/

namespace Scribe

namespace Session

variable {τ : Type} {s t : Session τ} [Add τ] [LE τ] [DecidableLE τ] [LT τ] [DecidableLT τ]

/-! ### What is accepted -/

omit [Add τ] [LE τ] [DecidableLE τ] [LT τ] [DecidableLT τ] in
/-- **What a step posts**, if that is not refused. -/
def acceptedBy (s : Session τ) : Move τ → List Posted
  | .post e => if s.state.isHalted then [] else [⟨e, false⟩]
  | .postElsewhere e => if s.state.isHalted then [] else [⟨e, true⟩]
  | _ => []

/-- **What steps post**, as far as it is not refused. -/
def accepted (s : Session τ) : List (Move τ) → List Posted
  | [] => []
  | m :: rest => s.acceptedBy m ++ (s.perform m).accepted rest

omit [Add τ] [LE τ] [DecidableLE τ] [LT τ] [DecidableLT τ] in
/-- What is scheduled, as it was posted. -/
def pending (s : Session τ) : List Posted :=
  s.scheduled.map (⟨·, true⟩)

omit [Add τ] [LE τ] [DecidableLE τ] [LT τ] [DecidableLT τ] in
/-- **A step overtakes** what was posted before it and is still scheduled: it puts something into
the queue ahead of that, or the end of the queue. -/
def Overtakes (s : Session τ) : Move τ → Prop
  | .post _ | .beginStop => s.state.isHalted = false ∧ s.scheduled ≠ []
  | _ => False

/-- **Nothing is overtaken** in some steps. -/
def IsPrompt (s : Session τ) : List (Move τ) → Prop
  | [] => True
  | m :: rest => ¬s.Overtakes m ∧ (s.perform m).IsPrompt rest

/-! ### Steps of a session that has ended -/

omit [Add τ] [LE τ] [DecidableLE τ] [LT τ] [DecidableLT τ] in
theorem acceptedBy_of_isHalted (h : s.state.isHalted = true) (m : Move τ) :
    s.acceptedBy m = [] := by
  cases m <;> simp [acceptedBy, h]

omit [Add τ] [LE τ] [DecidableLE τ] [LT τ] [DecidableLT τ] in
theorem arrivedBy_of_isHalted (h : s.state.isHalted = true) (m : Move τ) : s.arrivedBy m = [] := by
  cases m <;> simp [arrivedBy, h]

omit [Add τ] [LE τ] [DecidableLE τ] [LT τ] [DecidableLT τ] in
theorem not_overtakes_of_isHalted (h : s.state.isHalted = true) (m : Move τ) : ¬s.Overtakes m := by
  cases m <;> simp [Overtakes, h]

/-- A session that takes nothing goes on to take nothing. -/
theorem IsOrderly.isHalted_perform (h : s.IsOrderly) {m : Move τ} (hm : m ≠ .stop)
    (hok : (s.perform m).state ≠ .failed) (hhalted : s.state.isHalted = true) :
    (s.perform m).state.isHalted = true := by
  rcases h.follows hm hok with hsame | hfollows
  · rw [hsame]
    exact hhalted
  · generalize (s.perform m).state = next at hfollows
    generalize s.state = state at hfollows hhalted
    cases hfollows <;> first | rfl | cases hhalted

/-- **Nothing is accepted** by a session that has ended, nothing comes ahead of its end, and nothing
is overtaken any more. -/
theorem IsOrderly.of_isHalted (h : s.IsOrderly) {steps : List (Move τ)}
    (hsteps : ∀ m ∈ steps, m ≠ .stop) (hok : (s.run steps).state ≠ .failed)
    (hhalted : s.state.isHalted = true) :
    s.accepted steps = [] ∧ s.arrived steps = [] ∧ s.IsPrompt steps := by
  induction steps generalizing s with
  | nil => exact ⟨rfl, rfl, trivial⟩
  | cons m rest ih =>
    have hm := hsteps m List.mem_cons_self
    have hfirst : (s.perform m).state ≠ .failed := fun hs => hok (state_run_of_failed hs rest)
    obtain ⟨haccepted, harrived, hprompt⟩ := ih (h.step hm hfirst).orderly
      (fun n hn => hsteps n (List.mem_cons_of_mem _ hn)) hok (h.isHalted_perform hm hfirst hhalted)
    refine ⟨?_, ?_, not_overtakes_of_isHalted hhalted m, hprompt⟩
    · rw [accepted, acceptedBy_of_isHalted hhalted, haccepted, List.nil_append]
    · rw [arrived, arrivedBy_of_isHalted hhalted, harrived, List.nil_append]

/-! ### Steps of a session that takes events -/

theorem scheduled_consume (s : Session τ) : s.consume.scheduled = s.scheduled := by
  rw [consume]
  split
  · rfl
  · split
    · rfl
    · rfl
    · exact scheduled_handle _ _

theorem scheduled_handleQueued (s : Session τ) (queue : List QueueItem) :
    (s.handleQueued queue).scheduled = s.scheduled := by
  induction queue generalizing s with
  | nil => rfl
  | cons item rest ih =>
    cases item with
    | stop => exact ih _
    | posted e =>
      rw [handleQueued]
      split
      · exact scheduled_handle _ _
      · exact (ih _).trans (scheduled_handle _ _)

theorem scheduled_beginStop (s : Session τ) : s.beginStop.scheduled = s.scheduled := by
  rw [beginStop]
  dsimp only
  split
  · rfl
  · exact scheduled_handleQueued _ _

/-- **What a step posts comes into the queue behind what is scheduled**, or is scheduled itself, as
long as nothing is overtaken. A post of the own thread overtakes what is scheduled, if there is
anything, so it is left out of the account then. -/
theorem IsOrderly.pending_perform (h : s.IsOrderly) {m : Move τ} (hm : m ≠ .stop)
    (hopen : s.state.isHalted = false) :
    s.pending ++ (s.acceptedBy m).filter (·.elsewhere) =
      (s.arrivedBy m).filter (·.elsewhere) ++ (s.perform m).pending := by
  have hsame {t : Session τ} (ht : t.scheduled = s.scheduled) :
      s.pending ++ [] = [] ++ t.pending := by
    rw [pending, pending, ht, List.append_nil, List.nil_append]
  cases m with
  | post e =>
    simp only [acceptedBy, arrivedBy, hopen, Bool.false_eq_true, if_false]
    exact hsame (by rw [perform_post, if_neg (by simp [hopen])])
  | postElsewhere e =>
    rw [perform_postElsewhere]
    cases hstarted : s.started with
    | true => simp [acceptedBy, arrivedBy, hopen, hstarted, pending]
    | false =>
      have hidle : s.state = .idle := by
        cases hs : s.state with
        | idle => rfl
        | recording => simp [(h.recording hs).1] at hstarted
        | stopping | stopped | failed => simp [hs, SessionState.isHalted] at hopen
      simp [acceptedBy, arrivedBy, hopen, hstarted, pending, (h.idle hidle).2.2.2]
  | land =>
    cases hscheduled : s.scheduled with
    | nil => simp [perform_land_of_nil, acceptedBy, arrivedBy, hscheduled, pending]
    | cons e rest =>
      simp [perform_land_of_cons hscheduled, acceptedBy, arrivedBy, hopen, hscheduled, pending]
  | start =>
    refine hsame ?_
    rw [perform, start]
    split
    · rfl
    split <;> rfl
  | consume => exact hsame (scheduled_consume s)
  | timeOut =>
    refine hsame ?_
    rw [perform, timeOut]
    split
    · rfl
    · exact scheduled_afterYield _ _ _
  | setClock now => exact hsame rfl
  | beginStop =>
    refine hsame ?_
    rw [perform, if_neg (by simp [hopen])]
    exact scheduled_beginStop s
  | endStop =>
    refine hsame ?_
    rw [perform, if_neg]
    rintro hcan
    rcases (canEndStop_iff.mp hcan).1 with hs | hs <;> simp [hs, SessionState.isHalted] at hopen
  | stop => exact absurd rfl hm

omit [Add τ] [LE τ] [DecidableLE τ] [LT τ] [DecidableLT τ] in
/-- A step that is no post of the own thread posts only what other threads do. -/
theorem filter_elsewhere {m : Move τ} (hm : ∀ e, m ≠ .post e) :
    (s.acceptedBy m).filter (·.elsewhere) = s.acceptedBy m ∧
      (s.arrivedBy m).filter (·.elsewhere) = s.arrivedBy m := by
  cases m with
  | post e => exact absurd rfl (hm e)
  | postElsewhere e =>
    simp only [acceptedBy, arrivedBy]
    constructor <;> split <;> rfl
  | land =>
    refine ⟨rfl, ?_⟩
    simp only [arrivedBy]
    split
    · rfl
    · cases s.scheduled <;> rfl
  | _ => exact ⟨rfl, rfl⟩

/-- The same with the posts of the own thread, if nothing is overtaken. -/
theorem IsOrderly.pending_perform_of_prompt (h : s.IsOrderly) {m : Move τ} (hm : m ≠ .stop)
    (hopen : s.state.isHalted = false) (hprompt : ¬s.Overtakes m) :
    s.pending ++ s.acceptedBy m = s.arrivedBy m ++ (s.perform m).pending := by
  have hpending := h.pending_perform hm hopen
  by_cases hpost : ∃ e, m = .post e
  · obtain ⟨e, rfl⟩ := hpost
    have hnone : s.scheduled = [] := by
      by_contra hsome
      exact hprompt ⟨hopen, hsome⟩
    rw [perform_post, if_neg (by simp [hopen])]
    simp [acceptedBy, arrivedBy, pending, hnone]
  · obtain ⟨haccepted, harrived⟩ := filter_elsewhere (s := s) (not_exists.mp hpost)
    rwa [haccepted, harrived] at hpending

/-- **Only where a stop begins** does a session cease to take events. -/
theorem eq_beginStop {m : Move τ} (hm : m ≠ .stop)
    (hok : (s.perform m).state ≠ .failed) (hopen : s.state.isHalted = false)
    (hhalted : (s.perform m).state.isHalted = true) : m = .beginStop := by
  by_contra hne
  have hchanged : (s.perform m).state ≠ s.state := fun hsame => by simp [hsame, hopen] at hhalted
  cases m with
  | post e =>
    rw [perform_post, if_neg (by simp [hopen])] at hchanged
    exact hchanged rfl
  | postElsewhere e =>
    rw [perform_postElsewhere, if_neg (by simp [hopen])] at hchanged
    split at hchanged <;> exact hchanged rfl
  | land =>
    rw [perform, land] at hchanged
    split at hchanged <;> exact hchanged rfl
  | start =>
    rw [perform, start] at hhalted hchanged
    split at hchanged
    · exact hchanged rfl
    next hstarted =>
    rw [if_neg hstarted] at hhalted
    split at hhalted
    · simp [Except.toOption, hopen] at hhalted
    · cases hhalted
  | consume => exact hchanged (state_consume hok)
  | timeOut => exact hchanged (sameStanding_timeOut hok).state
  | setClock now => exact hchanged rfl
  | beginStop => exact hne rfl
  | endStop =>
    rw [perform, if_neg] at hchanged
    · exact hchanged rfl
    · rintro hcan
      rcases (canEndStop_iff.mp hcan).1 with hs | hs <;> simp [hs, SessionState.isHalted] at hopen
  | stop => exact hm rfl

omit [Add τ] [LE τ] [DecidableLE τ] [LT τ] [DecidableLT τ] in
/-- What the own thread posts comes into the queue in the same step. -/
theorem filter_arrivedBy (s : Session τ) (m : Move τ) :
    (s.arrivedBy m).filter (!·.elsewhere) = (s.acceptedBy m).filter (!·.elsewhere) := by
  cases m with
  | post e => rfl
  | postElsewhere e =>
    rw [arrivedBy, acceptedBy]
    split <;> split <;> rfl
  | land =>
    simp only [arrivedBy, acceptedBy]
    split
    · rfl
    · cases s.scheduled <;> rfl
  | _ => rfl

/-! ### Runs -/

/-- **What the own thread posts** comes into the queue. -/
theorem filter_arrived (s : Session τ) (steps : List (Move τ)) :
    (s.arrived steps).filter (!·.elsewhere) = (s.accepted steps).filter (!·.elsewhere) := by
  induction steps generalizing s with
  | nil => rfl
  | cons m rest ih =>
    rw [arrived, accepted, List.filter_append, List.filter_append, ih, filter_arrivedBy]

/-- **What other threads post** comes into the queue in order, up to something. -/
theorem IsOrderly.prefix_arrived (h : s.IsOrderly) {steps : List (Move τ)}
    (hsteps : ∀ m ∈ steps, m ≠ .stop) (hok : (s.run steps).state ≠ .failed) :
    (s.arrived steps).filter (·.elsewhere) <+:
      s.pending ++ (s.accepted steps).filter (·.elsewhere) := by
  induction steps generalizing s with
  | nil => exact List.nil_prefix
  | cons m rest ih =>
    cases hhalted : s.state.isHalted with
    | true =>
      rw [(h.of_isHalted hsteps hok hhalted).2.1]
      exact List.nil_prefix
    | false =>
      have hm := hsteps m List.mem_cons_self
      have hfirst : (s.perform m).state ≠ .failed := fun hs => hok (state_run_of_failed hs rest)
      have hrest := ih (h.step hm hfirst).orderly
        (fun n hn => hsteps n (List.mem_cons_of_mem _ hn)) hok
      rw [arrived, accepted, List.filter_append, List.filter_append, ← List.append_assoc,
        h.pending_perform hm hhalted, List.append_assoc]
      exact (List.prefix_append_right_inj _).mpr hrest

/-- **A session that has ended has taken just what was posted to it**, in order, if and only if
nothing was overtaken. -/
theorem IsOrderly.arrived_eq_iff (h : s.IsOrderly) {steps : List (Move τ)}
    (hsteps : ∀ m ∈ steps, m ≠ .stop) (hok : (s.run steps).state ≠ .failed)
    (hend : (s.run steps).state.isHalted = true) :
    s.pending ++ s.accepted steps = s.arrived steps ↔
      (s.state.isHalted = true → s.scheduled = []) ∧ s.IsPrompt steps := by
  induction steps generalizing s with
  | nil => simp [accepted, arrived, IsPrompt, pending, show s.state.isHalted = true from hend]
  | cons m rest ih =>
    cases hhalted : s.state.isHalted with
    | true =>
      obtain ⟨haccepted, harrived, hprompt⟩ := h.of_isHalted hsteps hok hhalted
      simp [haccepted, harrived, hprompt, pending]
    | false =>
      have hm := hsteps m List.mem_cons_self
      have hlater : ∀ n ∈ rest, n ≠ .stop := fun n hn => hsteps n (List.mem_cons_of_mem _ hn)
      have hfirst : (s.perform m).state ≠ .failed := fun hs => hok (state_run_of_failed hs rest)
      have horderly := (h.step hm hfirst).orderly
      by_cases hover : s.Overtakes m
      · -- either way the first of what is scheduled is left behind
        have hne : s.pending ++ s.accepted (m :: rest) ≠ s.arrived (m :: rest) := by
          cases m with
          | post e =>
            obtain ⟨f, more, hscheduled⟩ := List.exists_cons_of_ne_nil hover.2
            simp [accepted, acceptedBy, arrived, arrivedBy, hhalted, pending, hscheduled]
          | beginStop =>
            have hstopping : (s.perform .beginStop).state.isHalted = true := by
              rw [perform, if_neg (by simp [hhalted])]
              rcases state_beginStop (s := s) with hs | hs <;> rw [hs] <;> rfl
            obtain ⟨haccepted, harrived, -⟩ := horderly.of_isHalted hlater hok hstopping
            simpa [accepted, acceptedBy, arrived, arrivedBy, haccepted, harrived, pending]
              using hover.2
          | _ => exact hover.elim
        exact iff_of_false hne fun hprompt => hprompt.2.1 hover
      · have hquiet : (s.perform m).state.isHalted = true → (s.perform m).scheduled = [] := by
          intro hstopping
          obtain rfl := eq_beginStop hm hfirst hhalted hstopping
          rw [perform, if_neg (by simp [hhalted]), scheduled_beginStop]
          by_contra hsome
          exact hover ⟨hhalted, hsome⟩
        have hcalc : s.pending ++ s.accepted (m :: rest) =
            s.arrivedBy m ++ ((s.perform m).pending ++ (s.perform m).accepted rest) := by
          rw [accepted, ← List.append_assoc, h.pending_perform_of_prompt hm hhalted hover,
            List.append_assoc]
        rw [hcalc, arrived, List.append_cancel_left_eq, ih horderly hlater hok hend]
        exact ⟨fun hprompt => ⟨fun hfalse => absurd hfalse Bool.false_ne_true, hover, hprompt.2⟩,
          fun hprompt => ⟨hquiet, hprompt.2.2⟩⟩

/-- **What becomes of what is posted** to a session in a run. -/
structure HandlesPosts (s : Session τ) (moves : List (Move τ)) : Prop where
  /-- The run does what its steps do. -/
  run_steps : s.run (s.steps moves) = s.run moves
  /-- What it records is what the deeds of the steps make of the session. -/
  book : (s.run moves).book = ((s.deeds (s.steps moves)).foldl act s).book
  /-- But for the time going by, the deeds hand over what has come into the queue ahead of its end,
  each event once and in order, except for what still waits; and if the session has stopped, they
  settle what is left at the end. -/
  handed : ∃ handed, (s.deeds (s.steps moves)).filter (!·.isOfTime) =
      handed.map .hand ++ (if (s.run moves).state = .stopped then [.flush] else []) ∧
    (s.arrived (s.steps moves)).map (·.event) = handed ++ (s.run moves).waiting
  /-- Nothing waits when the session has stopped. -/
  waiting : (s.run moves).state = .stopped → (s.run moves).waiting = []
  /-- What the own thread posts comes into the queue. -/
  own : (s.arrived (s.steps moves)).filter (!·.elsewhere) =
    (s.accepted (s.steps moves)).filter (!·.elsewhere)
  /-- What other threads post comes in order, up to something. -/
  elsewhere : (s.arrived (s.steps moves)).filter (·.elsewhere) <+:
    (s.accepted (s.steps moves)).filter (·.elsewhere)
  /-- When the session has stopped, just what it accepted has come, in order, if and only if nothing
  was overtaken. -/
  arrived_eq_iff : (s.run moves).state = .stopped →
    (s.arrived (s.steps moves) = s.accepted (s.steps moves) ↔ s.IsPrompt (s.steps moves))
  /-- The states follow each other from step to step. -/
  follows : ∀ before m after, s.steps moves = before ++ m :: after →
    ((s.run before).perform m).state = (s.run before).state ∨
      (s.run before).state.Follows ((s.run before).perform m).state

/-- **What is posted is handled once, in order, and before what is left is settled**, unless it is
overtaken while it is scheduled. A run hands over what comes into the queue ahead of its end, and as
long as nothing fails this is all that was accepted, in order, if and only if nothing was overtaken
(`Scribe.Session.HandlesPosts`). What is posted to a session that is stopping, has stopped or has
failed is refused and not queued, from whatever thread. -/
theorem run_handled (testIdAttribute : String) (signalWindow syncTimeout start : τ)
    (clock : Clock τ) (moves : List (Move τ))
    (hok : ((fresh testIdAttribute signalWindow syncTimeout start clock).run moves).state ≠
      .failed) :
    (fresh testIdAttribute signalWindow syncTimeout start clock).HandlesPosts moves ∧
      ∀ (u : Session τ) (e : Option Event),
        (∀ result ∈ [u.post e, u.postElsewhere e], (∃ refusal, result = .error refusal) ↔
          u.state = .stopping ∨ u.state = .stopped ∨ u.state = .failed) ∧
        (u.state = .stopping ∨ u.state = .stopped ∨ u.state = .failed →
          u.perform (.post e) = u ∧ u.perform (.postElsewhere e) = u) := by
  obtain ⟨s, hs⟩ : ∃ s, s = fresh testIdAttribute signalWindow syncTimeout start clock := ⟨_, rfl⟩
  rw [← hs] at hok ⊢
  have hconsistent : s.IsConsistent := hs ▸ isConsistent_fresh _ _ _ _ _
  have horderly : s.IsOrderly := hs ▸ isOrderly_fresh _ _ _ _ _
  have hidle : s.state = .idle := by rw [hs]; rfl
  have hpending : s.pending = [] := by rw [hs]; rfl
  have hrun : s.run (s.steps moves) = s.run moves := run_steps hconsistent moves
  have hsteps : ∀ m ∈ s.steps moves, m ≠ .stop := fun m hm => ne_stop_of_mem_steps hm
  have hok' : (s.run (s.steps moves)).state ≠ .failed := by rwa [hrun]
  have hhandles := horderly.run hsteps hok'
  rw [hrun] at hhandles
  refine ⟨⟨hrun, hhandles.book, ?_, hhandles.orderly.waiting_of_stopped, filter_arrived s _, ?_,
    fun hstopped => ?_, ?_⟩, fun u e => ?_⟩
  · obtain ⟨handed, hdeeds, hwaiting⟩ := hhandles.handed
    have hnone : s.waiting = [] := by rw [hs]; rfl
    rw [hnone, List.nil_append] at hwaiting
    exact ⟨handed, by simpa [hidle] using hdeeds, hwaiting⟩
  · have hprefix := horderly.prefix_arrived hsteps hok'
    rwa [hpending, List.nil_append] at hprefix
  · have hiff := horderly.arrived_eq_iff hsteps hok' (by rw [hrun, hstopped]; rfl)
    rw [hpending, List.nil_append, hidle] at hiff
    refine ⟨fun heq => (hiff.mp heq.symm).2,
      fun hprompt => (hiff.mpr ⟨fun hfalse => ?_, hprompt⟩).symm⟩
    cases hfalse
  · intro before m after hsplit
    have hafter : (((s.run before).perform m).run after).state ≠ .failed := by
      rwa [hsplit, run_append] at hok'
    have hm : ((s.run before).perform m).state ≠ .failed :=
      fun hfailed => hafter (state_run_of_failed hfailed after)
    have hbefore : (s.run before).state ≠ .failed :=
      fun hfailed => hm (state_perform_of_failed hfailed m)
    have hmiddle := horderly.run (fun n hn => hsteps n (by simp [hsplit, hn])) hbefore
    exact hmiddle.orderly.follows (hsteps m (by simp [hsplit])) hm
  · rw [perform_post, perform_postElsewhere, post, postElsewhere]
    cases hstate : u.state <;> cases hstarted : u.started <;> simp [SessionState.isHalted]

/-- A page is posted before the session is started, and another by another thread, which comes into
the queue in time. A stop waits for the consumer, and meanwhile a third one is refused. Both pages
are handed over, and then what is left is settled. -/
theorem run_handled_of_late_post :
    let opened (page : String) : Option Event := some ⟨page, 0, false, .opened none⟩
    let s : Session ℕ := fresh "data-testid" 1 5 0 (.still 0)
    let moves : List (Move ℕ) := [.post (opened "p1"), .start, .postElsewhere (opened "p2"), .land,
      .beginStop, .post (opened "p3"), .consume, .consume, .consume, .endStop]
    (s.run moves).state ≠ .failed ∧ ((s.deeds (s.steps moves)).filter (!·.isOfTime)).length = 3 ∧
      (s.arrived (s.steps moves)).map (·.event.map Event.page) = [some "p1", some "p2"] ∧
        s.arrived (s.steps moves) = s.accepted (s.steps moves) ∧ (s.run moves).waiting = [] := by
  intro opened s moves
  have hstopped : (s.run moves).state = .stopped := by decide +kernel
  have hok : (s.run moves).state ≠ .failed := by simp [hstopped]
  obtain ⟨hposts, -⟩ := run_handled "data-testid" 1 5 0 (.still 0) moves hok
  have hprompt : s.IsPrompt (s.steps moves) :=
    ⟨fun h => h.2 rfl, id, id, id, fun h => h.2 rfl, fun h => h.2 rfl, id, id, id, id, trivial⟩
  have harrived : (s.arrived (s.steps moves)).map (·.event.map Event.page) =
      [some "p1", some "p2"] := by decide +kernel
  have hwaiting := hposts.waiting hstopped
  obtain ⟨handed, hdeeds, hhanded⟩ := hposts.handed
  rw [hwaiting, List.append_nil] at hhanded
  refine ⟨hok, ?_, harrived, (hposts.arrived_eq_iff hstopped).mpr hprompt, hwaiting⟩
  have hlength : handed.length = 2 := by
    rw [← hhanded, List.length_map, ← List.length_map (·.event.map Event.page), harrived]
    rfl
  rw [hdeeds, if_pos hstopped]
  simp [hlength]

/-- **What another thread posts can be lost**, and it can be overtaken. A page is posted by another
thread, and before this comes into the queue the session is stopped: it has stopped, and the page
was never handed over. If another page is posted instead, that one is handed over first.

To wait for what was posted does not help where there is no consumer: a page that was posted to a
session that is not started still waits after a drain. -/
theorem run_loses_post :
    let opened (page : String) : Option Event := some ⟨page, 0, false, .opened none⟩
    let pages (posts : List Posted) : List (Option String) := posts.map (·.event.map Event.page)
    let s : Session ℕ := fresh "data-testid" 1 5 0 (.still 0)
    let lost : List (Move ℕ) := [.start, .postElsewhere (opened "p1"), .stop, .land]
    let swapped : List (Move ℕ) :=
      [.start, .postElsewhere (opened "p1"), .post (opened "p2"), .land, .consume, .consume, .stop]
    let idle : Session ℕ := s.run [.post (opened "p1")]
    ((s.run lost).state = .stopped ∧ pages (s.accepted (s.steps lost)) = [some "p1"] ∧
        pages (s.arrived (s.steps lost)) = [] ∧ (s.run lost).log.actions.length = 0) ∧
      ((s.run swapped).state = .stopped ∧
        pages (s.accepted (s.steps swapped)) = [some "p1", some "p2"] ∧
        pages (s.arrived (s.steps swapped)) = [some "p2", some "p1"]) ∧
      idle.drain.waiting.map (·.map Event.page) = [some "p1"] ∧
        idle.drain.log.actions.length = 0 := by
  decide +kernel

end Session

end Scribe
