import Scribe.Observer
import Scribe.Proofs.Scope

/-!
# The stream of candidates

The candidates that the observer yields for one event after another form a stream. Each has one of a
few shapes (`Scribe.Observable`), and the stream is scoped: pages are introduced before they are
used, and are not used any more once they are closed.

What the observer knows of the pages is just what the stream says of them. `Scribe.Observed` is this
invariant, and `Scribe.Observed.observe` says that every event keeps it.
-/

namespace Scribe

/-! ### The shapes of candidates -/

/-- The kinds of actions that gestures amount to. -/
def gestureKinds : List Kind :=
  [.click, .fill, .check, .uncheck, .setInputFiles, .selectOption, .press]

/-- **An action of a gesture**, as it is before anything is put down to it. -/
structure Action.IsGesture (a : Action) : Prop where
  kind : a.kind ∈ gestureKinds
  selector : a.selector.isSome
  key : a.kind = .press → a.key.isSome
  button : ∃ b : MouseButton, a.button = b.name
  modifiers : ∀ m ∈ a.modifiers, m ∈ modifierOrder
  signals : a.signals = []
  incompleteSignals : a.incompleteSignals = []
  sequence : a.sequence = -1

/-- **What the observer yields**: a page was opened or closed, a gesture was made, or something
happened that a gesture may have set off. -/
inductive Observable : Candidate → Prop
  | opened (page : String) (url : Option String) :
      Observable (.action { action := { kind := .openPage, page := page, url := url } })
  | closed (page : String) :
      Observable (.action { action := { kind := .closePage, page := page } })
  | gesture {a : Action} {key : Option ElementKey} {awaiting : Option SignalKind}
      (gesture : a.IsGesture) : Observable (.action ⟨a, key, awaiting⟩)
  | popup (page popup : String) :
      Observable (Observer.signalCandidate page { kind := .popup, popup := some popup }
        { kind := .waitForPopup, page := page,
          signals := [{ kind := .popup, popup := some popup }] })
  | navigation (page url : String) :
      Observable (Observer.signalCandidate page { kind := .navigation, url := some url }
        { kind := .navigate, page := page, url := some url })
  | download (page : String) : Observable (Observer.onDownload page)
  | dialog (page : String) (dismissed : Bool) : Observable (Observer.onDialog page dismissed)

/-- A gesture neither opens nor closes a page. -/
theorem Action.IsGesture.use {a : Action} (h : a.IsGesture) :
    a.use = ⟨a.page, [], false, false⟩ := by
  have hopen : a.kind ≠ .openPage := fun hkind => by simpa [hkind, gestureKinds] using h.kind
  have hclose : a.kind ≠ .closePage := fun hkind => by simpa [hkind, gestureKinds] using h.kind
  simp [Action.use, Action.introduces, h.signals, hopen, hclose]

namespace Observer

theorem isOpen_iff {o : Observer} {page : String} :
    o.isOpen page = true ↔ o.isKnown page = true ∧ page ∉ o.closed := by
  simp [isOpen]

theorem mem_modifierOrder_of_normalizeModifiers {given : List String} {m : String}
    (h : m ∈ normalizeModifiers given) : m ∈ modifierOrder :=
  (List.mem_filter.mp h).1

/-- A gesture other than a click leaves the button and the modifiers as they are. -/
theorem isGesture_of_plain {page : String} {framePath : List String} {s : Selector} {k : Kind}
    {text key : Option String} {files options : Option (List String)} (hk : k ∈ gestureKinds)
    (hkey : k = .press → key.isSome) :
    ({ kind := k, page := page, framePath := framePath, selector := some s, text := text,
       files := files, options := options, key := key } : Action).IsGesture :=
  ⟨hk, rfl, hkey, ⟨.left, rfl⟩, by simp, rfl, rfl, rfl⟩

/-- What a gesture amounts to has the shape of a gesture, once it has its element. -/
theorem gestureAction_isGesture {page : String} {framePath modifiers : List String} {e : Element}
    {what : Gesture} {a : Action} (hmodifiers : ∀ m ∈ modifiers, m ∈ modifierOrder)
    (h : gestureAction { kind := .click, page := page, framePath := framePath } e modifiers what =
      some a) (s : Selector) :
    a.page = page ∧ ({ a with selector := some s } : Action).IsGesture := by
  cases what with
  | click button count awaiting =>
    simp only [gestureAction, clickAction] at h
    split at h
    · cases h
    split at h
    · obtain rfl := Option.some.inj h
      refine ⟨rfl, isGesture_of_plain ?_ ?_⟩ <;> split <;> simp [gestureKinds]
    · obtain rfl := Option.some.inj h
      exact ⟨rfl, by simp [gestureKinds], rfl, by simp, ⟨button, rfl⟩, hmodifiers, rfl, rfl, rfl⟩
  | input value =>
    simp only [gestureAction] at h
    split at h
    · obtain rfl := Option.some.inj h
      exact ⟨rfl, isGesture_of_plain (by simp [gestureKinds]) (by simp)⟩
    · cases h
  | change =>
    simp only [gestureAction] at h
    split at h
    · obtain rfl := Option.some.inj h
      exact ⟨rfl, isGesture_of_plain (by simp [gestureKinds]) (by simp)⟩
    split at h
    · obtain rfl := Option.some.inj h
      exact ⟨rfl, isGesture_of_plain (by simp [gestureKinds]) (by simp)⟩
    · cases h
  | keydown key =>
    simp only [gestureAction, keyAction] at h
    split at h
    · cases h
    split at h
    · cases h
    split at h
    · cases h
    · obtain rfl := Option.some.inj h
      exact ⟨rfl, isGesture_of_plain (by simp [gestureKinds]) (by simp)⟩
  | focus => cases h
  | blur => cases h
  | mousemove => cases h

/-- A gesture yields the candidate of an action on its page. -/
theorem onGesture_eq_some {o : Observer} {page : String} {aim : Aim} {what : Gesture}
    {c : Candidate} (h : o.onGesture page aim what = some c) :
    ∃ (a : Action) (key : Option ElementKey) (awaiting : Option SignalKind),
      c = .action ⟨a, key, awaiting⟩ ∧ a.page = page ∧ a.IsGesture := by
  simp only [onGesture, Option.bind_eq_bind, Option.bind_eq_some_iff] at h
  obtain ⟨snapshot, -, ref, -, e, -, a, ha, hc⟩ := h
  obtain rfl := Option.some.inj hc
  obtain ⟨hpage, hgesture⟩ := gestureAction_isGesture
    (fun m => mem_modifierOrder_of_normalizeModifiers) ha (snapshot.identify o.testIdAttribute e)
  exact ⟨_, _, _, rfl, hpage, hgesture⟩

/-! ### What is known of the pages -/

/-- Setting an entry makes its name one of the names. -/
theorem any_setEntry {α : Type} (entries : List (String × α)) (name other : String) (a : α) :
    (setEntry entries name a).any (·.1 == other) =
      (entries.any (·.1 == other) || name == other) := by
  rw [setEntry]
  split
  · next hany =>
    have hfst : ∀ e : String × α, (if e.1 == name then (name, a) else e).1 = e.1 := by
      intro e
      split
      · next he => exact (beq_iff_eq.mp he).symm
      · rfl
    simp only [List.any_map, Function.comp_def, hfst]
    by_cases hname : name = other
    · rw [← hname, hany]
      rfl
    · simp [hname]
  · simp

theorem isKnown_setAddress (o : Observer) (page other : String) (url : Option String) :
    (o.setAddress page url).isKnown other = (o.isKnown other || page == other) :=
  any_setEntry _ _ _ _

end Observer

/-! ### The stream -/

/-- **What the observer knows agrees with the stream**, and the stream is scoped. -/
structure Observed (o : Observer) (stream : List Candidate) : Prop where
  /-- Each candidate has one of the shapes. -/
  observable : ∀ c ∈ stream, Observable c
  inScope : Scoped (stream.map Candidate.use)
  /-- The known pages are those that were introduced. -/
  known : ∀ p, o.isKnown p = true ↔ p ∈ introduced (stream.map Candidate.use)
  /-- The pages that were closed are kept in mind as closed. -/
  closed : ∀ c ∈ stream, c.use.closes = true → c.use.page ∈ o.closed
  /-- Only known pages were closed. -/
  closed_known : ∀ p ∈ o.closed, o.isKnown p = true

namespace Observed

open Observer

variable {o o' : Observer} {stream : List Candidate}

theorem empty (testIdAttribute : String) :
    Observed { testIdAttribute := testIdAttribute } [] :=
  ⟨by simp, .nil, by simp [Observer.isKnown], by simp, by simp⟩

/-- Nothing was yielded, and nothing new was learnt about the pages. -/
theorem nothing (h : Observed o stream) (hknown : ∀ p, o'.isKnown p = o.isKnown p)
    (hclosed : o'.closed = o.closed) : Observed o' (stream ++ []) := by
  rw [List.append_nil]
  refine ⟨h.observable, h.inScope, fun p => ?_, ?_, fun p hp => ?_⟩
  · rw [hknown]
    exact h.known p
  · rw [hclosed]
    exact h.closed
  · rw [hknown]
    exact h.closed_known p (hclosed ▸ hp)

/-- **A candidate was yielded.** -/
theorem yield {c : Candidate} (h : Observed o stream) (hc : Observable c)
    (hnodup : c.use.introduces.Nodup) (hnew : ∀ p ∈ c.use.introduces, o.isKnown p = false)
    (hpage : c.use.opens = false → o.isKnown c.use.page = true)
    (hopen : c.use.page ∉ o.closed)
    (hknown : ∀ p, o'.isKnown p = true ↔ o.isKnown p = true ∨ p ∈ c.use.introduces)
    (hclosed : ∀ p, p ∈ o'.closed ↔ p ∈ o.closed ∨ (c.use.closes = true ∧ p = c.use.page))
    (hcloses : c.use.closes = true → c.use.opens = false) :
    Observed o' (stream ++ [c]) where
  observable d hd := by
    rcases List.mem_append.mp hd with hd | hd
    · exact h.observable d hd
    · rw [List.mem_singleton.mp hd]
      exact hc
  inScope := by
    rw [List.map_append]
    refine h.inScope.snoc hnodup (fun p hp hmem => ?_) (fun hopens => ?_) (fun u hu hucloses => ?_)
    · have hold := (h.known p).mpr hmem
      rw [hnew p hp] at hold
      cases hold
    · exact (h.known _).mp (hpage hopens)
    -- a page that an earlier candidate closed is in mind as closed
    · obtain ⟨d, hd, rfl⟩ := List.mem_map.mp hu
      intro hsame
      exact hopen (hsame ▸ h.closed d hd hucloses)
  known p := by
    rw [List.map_append, introduced_append, List.mem_append, hknown, h.known]
    simp
  closed d hd hdcloses := by
    rw [hclosed]
    rcases List.mem_append.mp hd with hd | hd
    · exact Or.inl (h.closed d hd hdcloses)
    · obtain rfl := List.mem_singleton.mp hd
      exact Or.inr ⟨hdcloses, rfl⟩
  closed_known p hp := by
    rw [hknown]
    rcases (hclosed p).mp hp with hp | ⟨hc, rfl⟩
    · exact Or.inl (h.closed_known p hp)
    · exact Or.inl (hpage (hcloses hc))

/-- Something happened on an open page, and neither opened nor closed one. -/
theorem happened {c : Candidate} (h : Observed o stream) (hc : Observable c)
    (hintroduces : c.use.introduces = []) (hopens : c.use.opens = false)
    (hcloses : c.use.closes = false) (hopen : o.isOpen c.use.page = true)
    (hknown : ∀ p, o'.isKnown p = o.isKnown p) (hclosed : o'.closed = o.closed) :
    Observed o' (stream ++ [c]) := by
  obtain ⟨hpage, hclosed'⟩ := isOpen_iff.mp hopen
  refine h.yield hc (by simp [hintroduces]) (by simp [hintroduces]) (fun _ => hpage) hclosed'
    (fun p => ?_) (fun p => ?_) (by simp [hopens])
  · simp [hknown, hintroduces]
  · simp [hclosed, hcloses]

/-- A new page was introduced. -/
theorem introduced {c : Candidate} {page : String} (h : Observed o stream) (hc : Observable c)
    (hintroduces : c.use.introduces = [page]) (hcloses : c.use.closes = false)
    (hnew : o.isKnown page = false)
    (hpage : (c.use.opens = true ∧ c.use.page = page) ∨ o.isOpen c.use.page = true)
    (hknown : ∀ p, o'.isKnown p = (o.isKnown p || page == p)) (hclosed : o'.closed = o.closed) :
    Observed o' (stream ++ [c]) := by
  rw [isOpen_iff] at hpage
  refine h.yield hc (by simp [hintroduces]) (by simp [hintroduces, hnew]) (fun hopens => ?_)
    (fun hmem => ?_) (fun p => ?_) (fun p => ?_) (by simp [hcloses])
  · rcases hpage with ⟨hopens', -⟩ | hpage
    · simp [hopens] at hopens'
    · exact hpage.1
  · rcases hpage with ⟨-, rfl⟩ | hpage
    · have hold := h.closed_known _ hmem
      rw [hnew] at hold
      cases hold
    · exact hpage.2 hmem
  · rw [hknown, hintroduces, Bool.or_eq_true, beq_iff_eq, List.mem_singleton]
    exact or_congr_right eq_comm
  · simp [hclosed, hcloses]

/-! ### Events -/

theorem onOpened (h : Observed o stream) (page : String) (url : Option String) :
    Observed (o.onOpened page url).2 (stream ++ (o.onOpened page url).1) := by
  rw [Observer.onOpened]
  split
  · exact h.nothing (fun _ => rfl) rfl
  · next hnew =>
    exact h.introduced (.opened page _) (by simp [Candidate.use, Action.use, Action.introduces]) rfl
      (Bool.eq_false_iff.mpr hnew) (Or.inl ⟨rfl, rfl⟩)
      (fun p => isKnown_setAddress o page p url) rfl

theorem onPopup (h : Observed o stream) (page popup : String) (url : Option String) :
    Observed (o.onPopup page popup url).2 (stream ++ (o.onPopup page popup url).1) := by
  rw [Observer.onPopup]
  split
  · exact h.nothing (fun _ => rfl) rfl
  · next hnew =>
    split
    · exact h.onOpened popup url
    · next hopen =>
      have hopen : o.isOpen page = true := by simpa using hopen
      refine h.introduced (.popup page popup) rfl rfl (Bool.eq_false_iff.mpr hnew) (Or.inr hopen)
        (fun p => ?_) ?_
      · dsimp only
        split <;> exact isKnown_setAddress o popup p url
      · dsimp only
        split <;> rfl

theorem onClosed {page : String} (h : Observed o stream) (hopen : o.isOpen page = true) :
    Observed (o.onClosed page).2 (stream ++ (o.onClosed page).1) := by
  obtain ⟨hpage, hclosed'⟩ := isOpen_iff.mp hopen
  refine h.yield (.closed page) (by simp [Candidate.use, Action.use, Action.introduces])
    (by simp [Candidate.use, Action.use, Action.introduces]) (fun _ => hpage) hclosed'
    (fun p => ?_) (fun p => ?_) (fun _ => rfl)
  · simp [Observer.onClosed, isKnown, Candidate.use, Action.use, Action.introduces]
  · simp [Observer.onClosed, Candidate.use, Action.use, or_comm]

theorem onNavigated {page : String} (h : Observed o stream) (hopen : o.isOpen page = true)
    (url : String) :
    Observed (o.onNavigated page url).2 (stream ++ (o.onNavigated page url).1) := by
  have hknown : ∀ p, (o.setAddress page (some url)).isKnown p = o.isKnown p := by
    intro p
    rw [isKnown_setAddress]
    by_cases hp : page = p
    · rw [← hp]
      simp [(isOpen_iff.mp hopen).1]
    · simp [hp]
  rw [Observer.onNavigated]
  split
  · exact h.nothing (fun _ => rfl) rfl
  · dsimp only
    split
    · exact h.nothing hknown rfl
    · exact h.happened (.navigation page url) rfl rfl rfl hopen hknown rfl

theorem onGesture {page : String} (h : Observed o stream) (hopen : o.isOpen page = true)
    (aim : Aim) (what : Gesture) :
    Observed o (stream ++ (o.onGesture page aim what).toList) := by
  cases hc : o.onGesture page aim what with
  | none => exact h.nothing (fun _ => rfl) rfl
  | some c =>
    obtain ⟨a, key, awaiting, rfl, rfl, hgesture⟩ := onGesture_eq_some hc
    exact h.happened (.gesture hgesture) (congrArg PageUse.introduces hgesture.use)
      (congrArg PageUse.opens hgesture.use) (congrArg PageUse.closes hgesture.use) hopen
      (fun _ => rfl) rfl

/-- What happens on a page that is not open is passed over. -/
theorem ifOpen {page : String} {r : List Candidate × Observer} (h : Observed o stream)
    (hr : o.isOpen page = true → Observed r.2 (stream ++ r.1)) :
    Observed (if !o.isOpen page then ([], o) else r).2
      (stream ++ (if !o.isOpen page then ([], o) else r).1) := by
  cases hopen : o.isOpen page with
  | false => exact h.nothing (fun _ => rfl) rfl
  | true => exact hr hopen

/-- **Every event keeps the stream scoped.** -/
theorem observe (h : Observed o stream) (e : Event) :
    Observed (o.observe e).2 (stream ++ (o.observe e).1) := by
  obtain ⟨page, timestamp, synthetic, what⟩ := e
  rw [Observer.observe]
  split
  · exact h.nothing (fun _ => rfl) rfl
  cases what with
  | opened url => exact h.onOpened page url
  | popup popup url => exact h.onPopup page popup url
  | closed => exact h.ifOpen fun hopen => h.onClosed hopen
  | navigated url => exact h.ifOpen fun hopen => h.onNavigated hopen url
  | download filename =>
    exact h.ifOpen fun hopen =>
      h.happened (.download page) rfl rfl rfl hopen (fun _ => rfl) rfl
  | dialog type message dismissed =>
    exact h.ifOpen fun hopen =>
      h.happened (.dialog page dismissed) rfl rfl rfl hopen (fun _ => rfl) rfl
  | gesture aim what => exact h.ifOpen fun hopen => h.onGesture hopen aim what

end Observed

end Scribe
