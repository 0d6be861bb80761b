import Scribe.Program.Catalog
import Scribe.Proofs.Program.CSharp
import Scribe.Proofs.Program.Java
import Scribe.Proofs.Program.JavaScript
import Scribe.Proofs.Program.Python
import Scribe.Proofs.Program.Scoping
import Scribe.Proofs.Session.Scope

/-!
# The programs of a recording

The log of a session is a log in the sense of `Scribe.Program.IsLog`: each committed action has one
of the forms that the observer gives to it, or that a signal takes when it stands for itself. So its
programs declare nothing twice, and they declare each page before they call it, in each of the seven
languages, except for the popups of a press of no key (`Scribe.Session.run_programs`).
-/

namespace Scribe

open Program

/-! ### The languages of the catalog -/

namespace Program.Catalog

/-- **The languages** whose emitters come with the library. -/
def languages : List Language :=
  [JavaScript.script, JavaScript.test, Python.script, Python.asyncScript, Python.test, Java.program,
    CSharp.program]

example :
    standard.emitters = languages.zipWith Language.emitter (standard.emitters.map (·.label)) :=
  rfl

/-- Each language of the catalog has lines that read as their plan. -/
theorem exists_reads_of_mem_languages {l : Language} (hl : l ∈ languages) :
    ∃ (rename : String → String) (handler : String → ℕ → Option String),
      l.Reads rename handler := by
  simp only [languages, List.mem_cons, List.not_mem_nil, or_false] at hl
  rcases hl with rfl | rfl | rfl | rfl | rfl | rfl | rfl
  · exact ⟨_, _, JavaScript.script_reads⟩
  · exact ⟨_, _, JavaScript.test_reads⟩
  · exact ⟨_, _, Python.script_reads⟩
  · exact ⟨_, _, Python.asyncScript_reads⟩
  · exact ⟨_, _, Python.test_reads⟩
  · exact ⟨_, _, Java.program_reads⟩
  · exact ⟨_, _, CSharp.program_reads⟩

end Program.Catalog

/-! ### The forms of what is committed -/

/-- Signals are put down only to actions that bear them. -/
theorem Entry.Sound.attached_eq_nil {e : Entry} (hs : e.Sound) {c : ActionCandidate}
    (hc : e.candidate = .action c) (hkind : c.action.kind.bearsSignals = false) :
    e.attached = [] := by
  cases hs with
  | @action d n replaced attached missed fills signals =>
    obtain rfl : d = c := Candidate.action.inj hc
    refine List.eq_nil_iff_forall_not_mem.mpr fun s hs => ?_
    have hbears := (signals s hs).1
    rw [hkind] at hbears
    cases hbears
  | standalone => cases hc

/-- **What is committed has one of the forms**, before it is bound. -/
theorem Entry.form_committed {e : Entry} (h : e.IsObservable) (hs : e.Sound) :
    e.committed.Form := by
  cases e with
  | standalone s n =>
    have hobs : Observable (.signal s) := h.candidate
    cases hobs with
    | popup page popup => exact .waiting (Or.inl rfl) ⟨_, Or.inl rfl, rfl⟩
    | navigation page url => exact .navigated rfl rfl
    | download page => exact .waiting (Or.inr rfl) ⟨_, Or.inr rfl, rfl⟩
    | dialog page dismissed => exact .dialog rfl ⟨_, rfl, rfl⟩
  | action c n replaced attached missed =>
    have hobs : Observable (.action c) := h.candidate
    cases hobs with
    | opened page url =>
      have hnil : attached = [] := hs.attached_eq_nil rfl rfl
      subst hnil
      cases missed <;> exact .opened rfl rfl
    | closed page =>
      have hnil : attached = [] := hs.attached_eq_nil rfl rfl
      subst hnil
      cases missed <;> exact .closed rfl rfl
    | gesture hgesture =>
      cases missed <;> exact .gesture hgesture.kind hgesture.selector hgesture.key hgesture.button
        hgesture.modifiers

/-- At most one signal of each kind is put down to an action. -/
theorem Entry.nodup_kinds_committed {e : Entry} (h : e.IsObservable) (hs : e.Sound) :
    (e.committed.signals.map (·.kind)).Nodup := by
  cases hs with
  | @action c n replaced attached missed fills signals kinds =>
    have hsignals : (Entry.action c n replaced attached missed).committed.signals =
        attached.map (·.1.signal) := by
      have hnone := Observable.signals h.candidate
      cases missed <;> simp [Entry.committed, Entry.receiving, hnone]
    rw [hsignals, List.map_map]
    exact kinds
  | @standalone s n =>
    have hobs : Observable (.signal s) := h.candidate
    cases hobs with
    | popup page popup => exact List.nodup_singleton _
    | navigation page url => exact List.nodup_nil
    | download page => exact List.nodup_singleton _
    | dialog page dismissed => exact List.nodup_singleton _

/-- A popup that was observed is a page. -/
theorem Entry.isSome_popup_committed {e : Entry} (h : e.IsObservable) :
    ∀ s ∈ e.committed.signals, s.kind = .popup → s.popup.isSome := by
  intro s hs hkind
  obtain ⟨t, ht, rfl⟩ := Entry.exists_observable_signal h hs
  cases ht <;> first | rfl | cases hkind

/-! ### Actions under aliases -/

theorem isOver_numbered (base : String) (n : ℕ) : isOver base (numbered base n) = true := by
  rw [isOver_iff]
  cases n with
  | zero => exact ⟨[], (List.append_nil _).symm, by simp⟩
  | succ n =>
    refine ⟨Nat.toDigits 10 (n + 1), ?_, fun c hc => ?_⟩
    · rw [numbered_succ, String.toList_append, Nat.toList_repr]
    · exact Nat.isDigit_of_mem_toDigits (by decide) (by decide) hc

theorem isOver_of_mem_firstNames {base name : String} {n : ℕ} (h : name ∈ firstNames base n) :
    isOver base name = true := by
  obtain ⟨i, -, rfl⟩ := List.mem_map.mp h
  exact isOver_numbered base i

namespace PageNames

variable {given : PageNames} {a b : Action}

/-- An alias is the name of a page. -/
theorem IsNumbered.isPageName (h : given.IsNumbered) {id page : String}
    (hpage : given.aliasOf? id = some page) : isPageName page = true := by
  refine isOver_of_mem_firstNames (n := given.pages.length) ?_
  rw [← h]
  exact List.mem_map_of_mem (mem_of_lookup hpage)

/-- Bound signals are of the same kinds. -/
theorem Binds.kinds (h : given.Binds a b) :
    b.signals.map (·.kind) = a.signals.map (·.kind) := by
  have hsignals := h.signals
  generalize a.signals = signals, b.signals = bound at hsignals
  induction hsignals with
  | nil => rfl
  | cons hst _ ih => rw [List.map_cons, List.map_cons, hst.kind, ih]

/-- **A bound action has the form that it had.** -/
theorem Binds.form (h : given.Binds a b) (ha : a.Form) : b.Form := by
  have hsingle : ∀ s, a.signals = [s] → ∃ t, t.kind = s.kind ∧ b.signals = [t] := by
    intro s hs
    have hsignals := h.signals
    rw [hs] at hsignals
    obtain ⟨t, rest, hst, hrest, heq⟩ := List.forall₂_cons_left_iff.mp hsignals
    rw [List.forall₂_nil_left_iff.mp hrest] at heq
    exact ⟨t, hst.kind, heq⟩
  have hnil : a.signals = [] → b.signals = [] := fun hs => by
    have hsignals := h.signals
    rw [hs] at hsignals
    exact List.forall₂_nil_left_iff.mp hsignals
  have hrest := h.rest
  rcases ha with ⟨hkind, hs⟩ | ⟨hkind, hs⟩ | ⟨hkind, s, hskind, hs⟩ | ⟨hkind, s, hskind, hs⟩ |
    ⟨hkind, hurl⟩ | ⟨hkind, hselector, hkey, hbutton, hmodifiers⟩
  · exact .opened (h.kind ▸ hkind) (hnil hs)
  · exact .closed (h.kind ▸ hkind) (hnil hs)
  · obtain ⟨t, ht, hb⟩ := hsingle s hs
    exact .dialog (h.kind ▸ hkind) ⟨t, ht ▸ hskind, hb⟩
  · obtain ⟨t, ht, hb⟩ := hsingle s hs
    exact .waiting (h.kind ▸ hkind) ⟨t, ht ▸ hskind, hb⟩
  · refine .navigated (h.kind ▸ hkind) ?_
    rw [← hrest] at hurl
    exact hurl
  · rw [← hrest] at hkind hselector hkey hbutton hmodifiers
    exact .gesture hkind hselector hkey hbutton hmodifiers

end PageNames

namespace Session

variable {τ : Type} {s : Session τ} {stream : List Candidate} {settled : List Entry}

/-- **The actions of the log are recorded actions.** -/
theorem Recorded.isRecorded (h : s.Recorded stream settled) {b : Action}
    (hb : b ∈ s.log.actions) : b.IsRecorded := by
  obtain ⟨e, he, hbinds⟩ := h.exists_entry hb
  have hobs := h.isObservable he
  obtain ⟨waiting, hacc⟩ := h.account
  have hsound := hacc.sound e (List.mem_append_left _ he)
  have hlogged := h.published.logged
  refine ⟨hlogged.numbered.isPageName hbinds.page, fun t ht => ?_, ?_,
    hbinds.form (Entry.form_committed hobs hsound)⟩
  · obtain ⟨i, hi⟩ := List.mem_iff_getElem?.mp ht
    -- the signal comes from one that was committed, and its names from the aliases
    obtain ⟨u, hu, hut⟩ := forall₂_getElem? hbinds.signals hi
    constructor
    · intro hkind
      have hsome := Entry.isSome_popup_committed hobs u (List.mem_iff_getElem?.mpr ⟨i, hu⟩)
        (hut.kind ▸ hkind)
      obtain ⟨id, hid⟩ := Option.isSome_iff_exists.mp hsome
      have hpopup := hut.popup
      rw [hid, Option.map_some] at hpopup
      obtain ⟨page, hpage, heq⟩ := Option.map_eq_some_iff.mp hpopup.symm
      exact ⟨page, hpage, hlogged.numbered.isPageName heq.symm⟩
    · intro hkind
      obtain ⟨name, hname⟩ := Option.isSome_iff_exists.mp (hut.download.mpr hkind)
      refine ⟨name, hname, ?_⟩
      have hmem : name ∈ s.log.actions.flatMap Action.downloads := by
        refine List.mem_flatMap.mpr ⟨b, hb, List.mem_flatMap.mpr ⟨t, ht, ?_⟩⟩
        simp [Signal.downloads, hkind, hname]
      rw [hlogged.downloads] at hmem
      exact isOver_of_mem_firstNames hmem
  · rw [hbinds.kinds]
    exact Entry.nodup_kinds_committed hobs hsound

theorem Recorded.isLog (h : s.Recorded stream settled) : IsLog s.log.actions where
  recorded _ hb := h.isRecorded hb
  inScope := h.inScope
  root := h.published.logged.root
  downloads := ⟨_, h.published.logged.downloads⟩

/-- The root page is the first one that is given an alias. -/
theorem Recorded.root_table (h : s.Recorded stream settled) :
    IsRoot s.names.table.root ∧
      (s.log.actions ≠ [] → s.names.table.root = some rootAlias) := by
  have hlogged := h.published.logged
  have htable : s.names.table.root =
      if s.names.pages.any (·.2 == rootAlias) then some rootAlias else none := rfl
  constructor
  · rw [htable]
    split
    · exact Or.inr rfl
    · exact Or.inl rfl
  · intro hne
    have hpages : s.names.pages ≠ [] := fun hnil => hne (hlogged.pages.mp hnil)
    have hmem : rootAlias ∈ s.names.pages.map (·.2) := by
      rw [hlogged.numbered]
      exact List.mem_map.mpr ⟨0, List.mem_range.mpr (List.length_pos_of_ne_nil hpages), rfl⟩
    obtain ⟨p, hp, hroot⟩ := List.mem_map.mp hmem
    rw [htable, if_pos (List.any_eq_true.mpr ⟨p, hp, by simp [hroot]⟩)]

/-- **The programs of a recording**, whatever is posted, and whenever the session is started and
stopped. In each of the seven languages, nothing is declared twice; and each page is declared before
it is called, outside of nested blocks, exactly if nothing is done on the popups of a press of no
key.
-/
theorem run_programs [Add τ] [LE τ] [DecidableLE τ] [LT τ] [DecidableLT τ]
    (testIdAttribute : String) (signalWindow syncTimeout start : τ) (clock : Clock τ)
    (moves : List (Move τ)) :
    let s := (fresh testIdAttribute signalWindow syncTimeout start clock).run moves
    ∀ l ∈ Catalog.languages,
      DeclaredOnce (l.lines s.log.actions s.names.table) ∧
        (ProperlyScoped l.bodyIndent.length (l.lines s.log.actions s.names.table) ↔
          SparesLostPopups s.log.actions) := by
  intro s l hl
  have hconsistent : s.IsConsistent := isConsistent_run
    (isConsistent_fresh testIdAttribute signalWindow syncTimeout start clock) moves
  obtain ⟨stream, settled, hrecorded⟩ := hconsistent.recorded
  obtain ⟨rename, handler, hreads⟩ := Catalog.exists_reads_of_mem_languages hl
  obtain ⟨hroot, hlog⟩ := hrecorded.root_table
  exact ⟨hreads.declaredOnce hrecorded.isLog hroot hlog,
    hreads.properlyScoped_lines_iff hrecorded.isLog hroot hlog⟩

/-- A click opens a popup, which is closed then: it is declared, since no key was pressed. -/
theorem run_programs_of_click :
    let s := (fresh "data-testid" 1 5 0 (.still 0) : Session ℕ).run
      [.start, .post (some ⟨"p1", 0, false, .opened none⟩),
        .post (some ⟨"p1", 0, false, .gesture
          { element := some "e1", snapshot := some ⟨[{ ref := "e1", tag := "button" }]⟩ }
          (.click .left 1 none)⟩),
        .post (some ⟨"p1", 0, false, .popup "p2" none⟩),
        .post (some ⟨"p2", 0, false, .closed⟩), .stop]
    s.log.actions.map (·.page) = ["page", "page", "page1"] ∧ CSharp.program ∈ Catalog.languages ∧
      ProperlyScoped 8 (CSharp.program.lines s.log.actions s.names.table) := by
  intro s
  have hmem : CSharp.program ∈ Catalog.languages := by simp [Catalog.languages]
  have hspares : SparesLostPopups s.log.actions := by decide +kernel
  refine ⟨by decide +kernel, hmem, ?_⟩
  exact ((run_programs "data-testid" 1 5 0 (.still 0) _) CSharp.program hmem).2.mpr hspares

/-- **A press of no key opens a popup, and the popup is clicked**: the program clicks on a page that
it does not declare. -/
theorem not_properlyScoped_of_lost_popup :
    let s := (fresh "data-testid" 1 5 0 (.still 0) : Session ℕ).run
      [.start, .post (some ⟨"p1", 0, false, .opened none⟩),
        .post (some ⟨"p1", 0, false, .gesture
          { element := some "e1", snapshot := some ⟨[{ ref := "e1", tag := "button" }]⟩ }
          (.keydown "")⟩),
        .post (some ⟨"p1", 0, false, .popup "p2" none⟩),
        .post (some ⟨"p2", 0, false, .gesture
          { element := some "e1", snapshot := some ⟨[{ ref := "e1", tag := "button" }]⟩ }
          (.click .left 1 none)⟩), .stop]
    ¬ProperlyScoped 2 (JavaScript.script.lines s.log.actions s.names.table) := by
  decide +kernel

end Session

end Scribe
