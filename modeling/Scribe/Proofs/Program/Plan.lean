import Scribe.Proofs.Observer.Stream
import Scribe.Proofs.PageNames.Binding
import Scribe.Proofs.Program.Statement

/-!
# Plans of recorded actions

An action of a log has one of a few forms (`Scribe.Action.IsRecorded`), and its statements follow
the form: all that they call is the page of the action, and they declare the page that it opens, its
popups and its downloads.

There is one exception. A press of no key (`Scribe.Action.IsEmptyPress`) is an action that no
language can perform, and a comment takes its place; what the action waits for goes with it.
-/

namespace Scribe

open Program

/-! ### Recorded actions -/

/-- **A press of no key.** -/
def Action.IsEmptyPress (a : Action) : Prop :=
  a.kind = .press ∧ a.key = some ""

instance (a : Action) : Decidable a.IsEmptyPress :=
  inferInstanceAs (Decidable (_ ∧ _))

/-- **A signal of a log**: a popup is a page, and a download has a variable. -/
structure Signal.IsBound (s : Signal) : Prop where
  popup : s.kind = .popup → ∃ page, s.popup = some page ∧ isPageName page = true
  download : s.kind = .download → ∃ name, s.download = some name ∧ isOver "download" name = true

/-- **The forms of recorded actions.** -/
inductive Action.Form (a : Action) : Prop
  /-- A page was opened. -/
  | opened (kind : a.kind = .openPage) (signals : a.signals = [])
  /-- A page was closed. -/
  | closed (kind : a.kind = .closePage) (signals : a.signals = [])
  /-- A dialog was answered that no action set off. -/
  | dialog (kind : a.kind = .handleDialog)
      (signals : ∃ s : Signal, s.kind = .dialog ∧ a.signals = [s])
  /-- A popup or a download came that no action set off. -/
  | waiting (kind : a.kind = .waitForPopup ∨ a.kind = .waitForDownload)
      (signals : ∃ s : Signal, (s.kind = .popup ∨ s.kind = .download) ∧ a.signals = [s])
  /-- A page moved to another address. -/
  | navigated (kind : a.kind = .navigate) (url : a.url.isSome)
  /-- A gesture was made. -/
  | gesture (kind : a.kind ∈ gestureKinds) (selector : a.selector.isSome)
      (key : a.kind = .press → a.key.isSome) (button : ∃ b : MouseButton, a.button = b.name)
      (modifiers : ∀ m ∈ a.modifiers, m ∈ modifierOrder)

/-- **An action of a log.** -/
structure Action.IsRecorded (a : Action) : Prop where
  page : isPageName a.page = true
  signals : ∀ s ∈ a.signals, s.IsBound
  /-- At most one signal of each kind was put down to it. -/
  kinds : (a.signals.map (·.kind)).Nodup
  form : a.Form

/-- The popups of an action. -/
def Action.popups (a : Action) : List String :=
  a.signals.flatMap Signal.introduces

/-- What a program calls when it performs an action: its page, if there is anything to do. Opening a
page calls nothing that is not there. -/
def Action.calls (a : Action) : List String :=
  if a.kind = .openPage ∨ (a.IsEmptyPress ∧ a.signal? .dialog = none) then [] else [a.page]

/-- What a program declares when it performs an action. -/
def Action.declares (a : Action) : List String :=
  if a.IsEmptyPress then [] else a.introduces

namespace Program

/-! ### Waits -/

/-- Names that extend a word are not empty. -/
theorem isEmpty_of_isOver {base name : String} (hbase : base ≠ "") (h : isOver base name = true) :
    name.isEmpty = false := by
  obtain ⟨digits, hdigits, -⟩ := isOver_iff.mp h
  rw [Bool.eq_false_iff]
  intro hempty
  rw [String.isEmpty_iff.mp hempty] at hdigits
  have hnil := (List.append_eq_nil_iff.mp hdigits.symm).1
  exact hbase (String.toList_eq_nil_iff.mp hnil)

theorem filterMap_waitOf?_popup {signals : List Signal} (h : ∀ s ∈ signals, s.IsBound) :
    (signals.filter (·.kind == .popup)).filterMap waitOf? =
      (signals.flatMap Signal.introduces).map Wait.popup := by
  rw [List.map_flatMap, List.filterMap_filter, List.filterMap_eq_flatMap_toList]
  refine List.flatMap_congr fun s hs => ?_
  by_cases hkind : s.kind = .popup
  · obtain ⟨page, hpage, hname⟩ := (h s hs).popup hkind
    have hne := isEmpty_of_isOver (by decide) hname
    simp [waitOf?, hkind, hpage, nonEmptyOr, hne, Signal.introduces]
  · simp [hkind, Signal.introduces]

theorem filterMap_waitOf?_download {signals : List Signal} (h : ∀ s ∈ signals, s.IsBound) :
    (signals.filter (·.kind == .download)).filterMap waitOf? =
      (signals.flatMap Signal.downloads).map Wait.download := by
  rw [List.map_flatMap, List.filterMap_filter, List.filterMap_eq_flatMap_toList]
  refine List.flatMap_congr fun s hs => ?_
  by_cases hkind : s.kind = .download
  · obtain ⟨name, hname, hover⟩ := (h s hs).download hkind
    have hne := isEmpty_of_isOver (by decide) hover
    simp [waitOf?, hkind, hname, nonEmptyOr, hne, Signal.downloads]
  · simp [hkind, Signal.downloads]

section

variable {a : Action} {rename : String → String}

/-- **An action waits for its popups, and then for its downloads.** -/
theorem waitsOf_eq (h : a.IsRecorded) :
    waitsOf a = a.popups.map Wait.popup ++ a.downloads.map Wait.download := by
  rw [waitsOf, filterMap_waitOf?_popup h.signals, filterMap_waitOf?_download h.signals]
  rfl

/-- Popups go by the names of pages. -/
theorem isPageName_of_mem_popups (h : a.IsRecorded) {page : String} (hpage : page ∈ a.popups) :
    isPageName page = true := by
  obtain ⟨s, hs, hpage⟩ := List.mem_flatMap.mp hpage
  rw [Signal.introduces] at hpage
  split at hpage
  · next hkind =>
    obtain ⟨popup, hpopup, hname⟩ := (h.signals s hs).popup hkind
    rw [hpopup, Option.toList_some, List.mem_singleton] at hpage
    exact hpage ▸ hname
  · cases hpage

/-- Downloads go by the names of downloads. -/
theorem isOver_of_mem_downloads (h : a.IsRecorded) {name : String} (hname : name ∈ a.downloads) :
    isOver "download" name = true := by
  obtain ⟨s, hs, hname⟩ := List.mem_flatMap.mp hname
  rw [Signal.downloads] at hname
  split at hname
  · next hkind =>
    obtain ⟨download, hdownload, hover⟩ := (h.signals s hs).download hkind
    rw [hdownload, Option.toList_some, List.mem_singleton] at hname
    exact hname ▸ hover
  · cases hname

theorem isNamed_of_mem_waitsOf (h : a.IsRecorded) : ∀ w ∈ waitsOf a, w.IsNamed := by
  rw [waitsOf_eq h]
  intro w hw
  rcases List.mem_append.mp hw with hw | hw
  · obtain ⟨page, hpage, rfl⟩ := List.mem_map.mp hw
    exact isPageName_of_mem_popups h hpage
  · obtain ⟨name, hname, rfl⟩ := List.mem_map.mp hw
    exact isOver_of_mem_downloads h hname

theorem map_var_waitsOf (h : a.IsRecorded) (rename : String → String) :
    (waitsOf a).map (Wait.var rename) = a.popups ++ a.downloads.map rename := by
  rw [waitsOf_eq h, List.map_append, List.map_map, List.map_map]
  congr 1
  exact List.map_id _

theorem filterMap_popup?_waitsOf (h : a.IsRecorded) :
    (waitsOf a).filterMap Wait.popup? = a.popups := by
  rw [waitsOf_eq h, List.filterMap_append, List.filterMap_map, List.filterMap_map]
  have hpopups : Wait.popup? ∘ Wait.popup = some := rfl
  have hdownloads : Wait.popup? ∘ Wait.download = fun _ => none := rfl
  rw [hpopups, hdownloads, List.filterMap_some, List.filterMap_none, List.append_nil]

/-- There is one popup at most. -/
theorem length_popups_le (h : a.IsRecorded) : a.popups.length ≤ 1 := by
  have hkinds := h.kinds
  rw [Action.popups]
  generalize a.signals = signals at hkinds ⊢
  induction signals with
  | nil => exact Nat.zero_le 1
  | cons s rest ih =>
    rw [List.map_cons, List.nodup_cons] at hkinds
    rw [List.flatMap_cons, List.length_append]
    by_cases hkind : s.kind = .popup
    -- no other signal is one of a popup
    · have hrest : rest.flatMap Signal.introduces = [] := by
        refine List.flatMap_eq_nil_iff.mpr fun t ht => if_neg fun htkind => hkinds.1 ?_
        rw [hkind, ← htkind]
        exact List.mem_map_of_mem ht
      have hhere : s.introduces.length ≤ 1 := by
        rw [Signal.introduces, if_pos hkind]
        cases s.popup <;> simp
      rw [hrest]
      simpa using hhere
    · have hhere : s.introduces = [] := if_neg hkind
      rw [hhere]
      simpa using ih hkinds.2

/-- Behind the first wait there are only downloads. -/
theorem popup?_of_mem_tail (h : a.IsRecorded) : ∀ w ∈ (waitsOf a).tail, w.popup? = none := by
  have hlength := length_popups_le h
  have hdownloads : ∀ w ∈ a.downloads.map Wait.download, w.popup? = none := by
    intro w hw
    obtain ⟨name, -, rfl⟩ := List.mem_map.mp hw
    rfl
  rw [waitsOf_eq h]
  cases hpopups : a.popups with
  | nil => exact fun w hw => hdownloads w (List.mem_of_mem_tail hw)
  | cons page rest =>
    rw [hpopups, List.length_cons] at hlength
    obtain rfl : rest = [] := List.eq_nil_of_length_eq_zero (by omega)
    exact hdownloads

/-! ### Operations -/

/-- **The operation of an action** that has one in some language: it works on the page of the
action. -/
def HasOperation (a : Action) : Prop :=
  ¬a.IsEmptyPress ∧ ∃ op, operation? a = some op ∧ op.page = a.page ∧ op.IsPlain

theorem hasOperation_of_navigate (hkind : a.kind = .navigate) (hurl : a.url.isSome) :
    HasOperation a := by
  obtain ⟨url, hurl⟩ := Option.isSome_iff_exists.mp hurl
  refine ⟨fun hpress => ?_, .navigate a.page url, ?_, rfl, trivial⟩
  · cases hkind.symm.trans hpress.1
  · simp only [operation?, hkind, hurl]

/-- What is done to an element is done on its page. -/
theorem page_elementOperation {target : Target} {op : Operation}
    (hbutton : ∃ b : MouseButton, a.button = b.name)
    (hmodifiers : ∀ m ∈ a.modifiers, m ∈ modifierOrder) (h : elementOperation? a target = some op) :
    op.page = target.page ∧ op.IsPlain := by
  rw [elementOperation?] at h
  split at h
  · obtain rfl := Option.some.inj h
    exact ⟨rfl, hbutton, hmodifiers⟩
  · obtain rfl := Option.some.inj h
    exact ⟨rfl, trivial⟩
  · obtain rfl := Option.some.inj h
    exact ⟨rfl, trivial⟩
  · obtain rfl := Option.some.inj h
    exact ⟨rfl, trivial⟩
  · split at h
    · split at h
      · cases h
      · obtain rfl := Option.some.inj h
        exact ⟨rfl, trivial⟩
    · cases h
  · obtain rfl := Option.some.inj h
    exact ⟨rfl, trivial⟩
  · obtain rfl := Option.some.inj h
    exact ⟨rfl, trivial⟩
  · cases h

/-- Only a press of no key does nothing to an element. -/
theorem elementOperation?_eq_none_iff (hkind : a.kind ∈ gestureKinds)
    (hkey : a.kind = .press → a.key.isSome) (target : Target) :
    elementOperation? a target = none ↔ a.IsEmptyPress := by
  rw [Action.IsEmptyPress, elementOperation?]
  simp only [gestureKinds, List.mem_cons, List.not_mem_nil, or_false] at hkind
  rcases hkind with hkind | hkind | hkind | hkind | hkind | hkind | hkind
  · simp [hkind]
  · simp [hkind]
  · simp [hkind]
  · simp [hkind]
  · simp [hkind]
  · simp [hkind]
  · obtain ⟨key, hkey⟩ := Option.isSome_iff_exists.mp (hkey hkind)
    simp [hkind, hkey, String.isEmpty_iff]

/-- A gesture has an operation, unless it is a press of no key. -/
theorem operation?_of_gesture (hkind : a.kind ∈ gestureKinds) (hselector : a.selector.isSome)
    (hkey : a.kind = .press → a.key.isSome) (hbutton : ∃ b : MouseButton, a.button = b.name)
    (hmodifiers : ∀ m ∈ a.modifiers, m ∈ modifierOrder) :
    (a.IsEmptyPress ∧ operation? a = none) ∨ HasOperation a := by
  obtain ⟨selector, hselector⟩ := Option.isSome_iff_exists.mp hselector
  have hoperation : operation? a = elementOperation? a ⟨a.page, a.framePath, selector⟩ := by
    rw [operation?]
    split
    · next hnavigate _ =>
      rw [hnavigate] at hkind
      exact absurd hkind (by decide)
    · rw [hselector]
      rfl
  have hnone := elementOperation?_eq_none_iff hkind hkey ⟨a.page, a.framePath, selector⟩
  rw [HasOperation, hoperation]
  cases hop : elementOperation? a ⟨a.page, a.framePath, selector⟩ with
  | none => exact Or.inl ⟨hnone.mp hop, rfl⟩
  | some op =>
    refine Or.inr ⟨fun hpress => ?_, op, rfl, page_elementOperation hbutton hmodifiers hop⟩
    rw [hnone.mpr hpress] at hop
    cases hop

/-! ### Statements -/

/-- **How an action is performed**, opening and closing pages aside. -/
inductive Performed (a : Action) : List Statement → Prop
  /-- No language has an operation for it. -/
  | comment (press : a.IsEmptyPress) : Performed a [.comment "unsupported action: press"]
  /-- It stands for a dialog, which is answered in front of it. -/
  | dialog (press : ¬a.IsEmptyPress) (dialog : a.signal? .dialog ≠ none) (waits : waitsOf a = []) :
      Performed a []
  /-- It stands for something that is waited for. -/
  | wait {w : Wait} (press : ¬a.IsEmptyPress) (waits : waitsOf a = [w]) :
      Performed a [.wait a.page w]
  /-- It has an operation and waits for nothing. -/
  | perform {op : Operation} (press : ¬a.IsEmptyPress) (page : op.page = a.page)
      (plain : op.IsPlain) (waits : waitsOf a = []) : Performed a [.perform op]
  /-- It has an operation, during which it waits for something. -/
  | performWaiting {op : Operation} (press : ¬a.IsEmptyPress) (page : op.page = a.page)
      (plain : op.IsPlain) (waits : waitsOf a ≠ []) :
      Performed a [.performWaiting a.page (waitsOf a) op]

/-- An action with an operation is performed by it. -/
theorem performed_of_hasOperation (h : HasOperation a) (hdialog : a.kind ≠ .handleDialog)
    (hpopup : a.kind ≠ .waitForPopup) (hdownload : a.kind ≠ .waitForDownload) :
    Performed a (performStatements a) := by
  obtain ⟨hpress, op, hop, hpage, hplain⟩ := h
  rw [performStatements]
  split
  · contradiction
  · contradiction
  · contradiction
  · simp only [hop]
    split
    · next hwaits => exact .perform hpress hpage hplain hwaits
    · next hwaits => exact .performWaiting hpress hpage hplain hwaits

/-- **A recorded action is performed in one of these ways**, unless it opens or closes a page. -/
theorem performed_performStatements (h : a.IsRecorded) (hopen : a.kind ≠ .openPage)
    (hclose : a.kind ≠ .closePage) : Performed a (performStatements a) := by
  have hwaits := waitsOf_eq h
  rcases h.form with ⟨hkind, -⟩ | ⟨hkind, -⟩ | ⟨hkind, s, hs, hsignals⟩ | ⟨hkind, s, hs, hsignals⟩ |
    ⟨hkind, hurl⟩ | ⟨hkind, hselector, hkey, hbutton, hmodifiers⟩
  · exact absurd hkind hopen
  · exact absurd hkind hclose
  · have hnone : waitsOf a = [] := by
      rw [hwaits]
      simp [Action.popups, Action.downloads, hsignals, Signal.introduces, Signal.downloads, hs]
    have hlines : performStatements a = [] := by
      rw [performStatements, hkind]
    rw [hlines]
    refine .dialog (fun hpress => ?_) ?_ hnone
    · cases hkind.symm.trans hpress.1
    · simp [Action.signal?, hsignals, hs]
  -- its only signal is what is waited for
  · obtain ⟨w, hw⟩ : ∃ w, waitsOf a = [w] := by
      have hbound := h.signals s (by simp [hsignals])
      rw [hwaits]
      rcases hs with hs | hs
      · obtain ⟨page, hpage, -⟩ := hbound.popup hs
        exact ⟨.popup page, by
          simp [Action.popups, Action.downloads, hsignals, Signal.introduces, Signal.downloads, hs,
            hpage]⟩
      · obtain ⟨name, hname, -⟩ := hbound.download hs
        exact ⟨.download name, by
          simp [Action.popups, Action.downloads, hsignals, Signal.introduces, Signal.downloads, hs,
            hname]⟩
    have hlines : performStatements a = [.wait a.page w] := by
      rw [performStatements]
      rcases hkind with hkind | hkind <;> simp [hkind, hw]
    rw [hlines]
    refine .wait (fun hpress => ?_) hw
    rcases hkind with hkind | hkind <;> cases hkind.symm.trans hpress.1
  · refine performed_of_hasOperation (hasOperation_of_navigate hkind hurl) ?_ ?_ ?_
    all_goals simp [hkind]
  · have hother : a.kind ≠ .handleDialog ∧ a.kind ≠ .waitForPopup ∧ a.kind ≠ .waitForDownload := by
      refine ⟨?_, ?_, ?_⟩ <;> intro hother <;> rw [hother] at hkind <;> revert hkind <;> decide
    rcases operation?_of_gesture hkind hselector hkey hbutton hmodifiers with ⟨hpress, hnone⟩ | hop
    -- the waits are dropped along with the operation
    · have hlines : performStatements a = [.comment "unsupported action: press"] := by
        have hpressKind := hpress.1
        simp only [performStatements, hpressKind, hnone]
        rfl
      rw [hlines]
      exact .comment hpress
    · exact performed_of_hasOperation hop hother.1 hother.2.1 hother.2.2

namespace Performed

variable {sts : List Statement}

theorem isPlain (h : Performed a sts) (ha : a.IsRecorded) : ∀ st ∈ sts, st.IsPlain := by
  have hwait : ∀ w ∈ waitsOf a, w.IsNamed := isNamed_of_mem_waitsOf ha
  cases h with
  | comment press =>
    intro st hst
    obtain rfl := List.mem_singleton.mp hst
    exact ⟨by decide, by decide⟩
  | dialog press dialog waits => simp
  | wait press waits =>
    intro st hst
    obtain rfl := List.mem_singleton.mp hst
    exact ⟨ha.page, hwait _ (by simp [waits])⟩
  | perform press page plain waits =>
    intro st hst
    obtain rfl := List.mem_singleton.mp hst
    exact ⟨page ▸ ha.page, plain⟩
  | performWaiting press page plain waits =>
    intro st hst
    obtain rfl := List.mem_singleton.mp hst
    exact ⟨⟨ha.page, page, plain⟩, waits, hwait, popup?_of_mem_tail ha⟩

/-- They call the page of the action, unless it is a press of no key or stands for a dialog. -/
theorem mem_uses (h : Performed a sts) {page : String} :
    page ∈ sts.flatMap Statement.uses → page = a.page := by
  cases h with
  | comment press => simp [Statement.uses]
  | dialog press dialog waits => simp
  | wait press waits => simp [Statement.uses]
  | perform press hpage plain waits => simp [Statement.uses, hpage]
  | performWaiting press hpage plain waits => simp [Statement.uses]

theorem page_mem_uses (h : Performed a sts) (hpress : ¬a.IsEmptyPress)
    (hdialog : a.signal? .dialog = none) : a.page ∈ sts.flatMap Statement.uses := by
  cases h with
  | comment press => exact absurd press hpress
  | dialog press dialog waits => exact absurd hdialog dialog
  | wait press waits => simp [Statement.uses]
  | perform press hpage plain waits => simp [Statement.uses, hpage]
  | performWaiting press hpage plain waits => simp [Statement.uses]

theorem uses_of_isEmptyPress (h : Performed a sts) (hpress : a.IsEmptyPress) :
    sts.flatMap Statement.uses = [] := by
  cases h with
  | comment press => rfl
  | dialog press dialog waits => exact absurd hpress press
  | wait press waits => exact absurd hpress press
  | perform press hpage plain waits => exact absurd hpress press
  | performWaiting press hpage plain waits => exact absurd hpress press

/-- **What is declared**: the popups and downloads, unless the action is a press of no key. -/
theorem vars (h : Performed a sts) (ha : a.IsRecorded) :
    sts.flatMap (Statement.vars rename) =
      if a.IsEmptyPress then [] else a.popups ++ a.downloads.map rename := by
  have hwaits := map_var_waitsOf ha rename
  cases h with
  | comment press =>
    rw [if_pos press]
    rfl
  | dialog press dialog waits =>
    rw [if_neg press, ← hwaits, waits]
    rfl
  | wait press waits =>
    rw [if_neg press, ← hwaits, waits]
    rfl
  | perform press hpage plain waits =>
    rw [if_neg press, ← hwaits, waits]
    rfl
  | performWaiting press hpage plain waits =>
    rw [if_neg press, ← hwaits]
    exact List.append_nil _

theorem pages (h : Performed a sts) (ha : a.IsRecorded) :
    sts.flatMap Statement.pages = if a.IsEmptyPress then [] else a.popups := by
  have hwaits := filterMap_popup?_waitsOf ha
  cases h with
  | comment press =>
    rw [if_pos press]
    rfl
  | dialog press dialog waits =>
    rw [if_neg press, ← hwaits, waits]
    rfl
  | wait press waits =>
    rw [if_neg press, ← hwaits, waits]
    exact List.append_nil _
  | perform press hpage plain waits =>
    rw [if_neg press, ← hwaits, waits]
    rfl
  | performWaiting press hpage plain waits =>
    rw [if_neg press, ← hwaits]
    exact List.append_nil _

theorem dialog? (h : Performed a sts) : sts.filterMap Statement.dialog? = [] := by
  cases h <;> rfl

end Performed

end

end Program

end Scribe
