import Scribe.Proofs.PageNames.Numbering
import Scribe.Proofs.Session.Program

/-!
# Downloads in classes

Downloads are named `download`, `download1` and so on, in the order in which names are asked for.
Classes number their variables from one on instead. They are not told which download it is: the
number is read off the end of its name, and the next one is written in its place.

Whatever names are asked for (`Scribe.PageNames.Request`), they grow by the downloads that are named
on the way (`Scribe.PageNames.grows_serveAll`), and the names of a session grow by those in its log.
In both cases the downloads are named in order, so the `n`-th of them has the variable of number
`n + 1`, and no variable is used twice or for a page (`Scribe.Session.run_downloadVariables`).
-/

namespace Scribe

open Program

/-! ### Names on request -/

/-- The names that a signal is given when it is bound: a download that has a name keeps it. -/
def Signal.newNames (s bound : Signal) : List String :=
  if s.kind = .download ∧ s.download = none then bound.downloads else []

namespace PageNames

/-- **What names are asked for**, unless they are only read. -/
inductive Request where
  /-- A page is to be given an alias. -/
  | allocate (id : String)
  /-- A page has been closed. -/
  | release (id : String)
  /-- A download is to be named. -/
  | nextDownload
  /-- Aliases are to be put in the place of identifiers. -/
  | bind (a : Action)
  deriving Repr, DecidableEq

/-- A request is served: the names after it, and the downloads that it named. A refusal leaves the
names as they are. -/
def serve (names : PageNames) : Request → PageNames × List String
  | .allocate id =>
    match names.allocate id with
    | .error _ => (names, [])
    | .ok (_, names) => (names, [])
  | .release id => (names.release id, [])
  | .nextDownload => (names.nextDownload.2, [names.nextDownload.1])
  | .bind a =>
    ((names.bind a).2, (List.zipWith Signal.newNames a.signals (names.bind a).1.signals).flatten)

/-- **Requests are served**, one after the other. -/
def serveAll (names : PageNames) : List Request → PageNames × List String
  | [] => (names, [])
  | r :: rest =>
    (((names.serve r).1.serveAll rest).1, (names.serve r).2 ++ ((names.serve r).1.serveAll rest).2)

theorem grows_allocate (names : PageNames) (id : String) :
    names.Grows (names.serve (.allocate id)).1 (names.serve (.allocate id)).2 := by
  rw [serve, allocate]
  cases h : names.aliasOf? id with
  | some given => exact .refl names
  | none => exact (grows_add h).1

theorem grows_nextDownload (names : PageNames) :
    names.Grows names.nextDownload.2 [names.nextDownload.1] :=
  ⟨fun _ _ h => h, id, firstNames_succ _ _⟩

/-- Whatever a signal holds already, names grow by the one that it is given. -/
theorem grows_newNames (names : PageNames) (s : Signal) :
    names.Grows (names.bindSignal s).2 (s.newNames (names.bindSignal s).1) := by
  obtain ⟨kind, popup, download, dismiss, url⟩ := s
  cases kind with
  | popup =>
    cases popup with
    | none => exact .refl names
    | some id => exact (grows_bindPage names id).1
  | download =>
    cases download with
    | none => exact names.grows_nextDownload
    | some name => exact .refl names
  | dialog => exact .refl names
  | navigation => exact .refl names

theorem grows_newNames_bindSignals (names : PageNames) (signals : List Signal) :
    names.Grows (names.bindSignals signals).2
      (List.zipWith Signal.newNames signals (names.bindSignals signals).1).flatten := by
  induction signals generalizing names with
  | nil => exact .refl names
  | cons s rest ih => exact (names.grows_newNames s).trans (ih (names.bindSignal s).2)

/-- **A request makes the names grow** by the downloads that it names. -/
theorem grows_serve (names : PageNames) (r : Request) :
    names.Grows (names.serve r).1 (names.serve r).2 := by
  cases r with
  | allocate id => exact names.grows_allocate id
  | release id => exact names.grows_release id
  | nextDownload => exact names.grows_nextDownload
  | bind a =>
    have hpage := (names.grows_bindPage a.page).1
    have hsignals := (names.bindPage a.page).2.grows_newNames_bindSignals a.signals
    have hclosed :
        ((names.bindPage a.page).2.bindSignals a.signals).2.Grows (names.bind a).2 [] := by
      rw [PageNames.bind]
      dsimp only
      split
      · exact grows_release _ _
      · exact .refl _
    have hall := (hpage.trans hsignals).trans hclosed
    rwa [List.nil_append, List.append_nil] at hall

/-- **Requests make the names grow** by the downloads that they name. -/
theorem grows_serveAll (names : PageNames) (requests : List Request) :
    names.Grows (names.serveAll requests).1 (names.serveAll requests).2 := by
  induction requests generalizing names with
  | nil => exact .refl names
  | cons r rest ih => exact (names.grows_serve r).trans (ih (names.serve r).1)

/-- Whoever asks for the name of a download is given one. -/
theorem count_nextDownload_le (names : PageNames) (requests : List Request) :
    requests.count .nextDownload ≤ (names.serveAll requests).2.length := by
  induction requests generalizing names with
  | nil => exact Nat.zero_le _
  | cons r rest ih =>
    have hrest := ih (names.serve r).1
    have hfirst : (if (r == .nextDownload) = true then 1 else 0) ≤ (names.serve r).2.length := by
      cases r with
      | nextDownload => exact Nat.le_refl 1
      | allocate | release | bind => exact Nat.zero_le _
    rw [List.count_cons, serveAll, List.length_append]
    omega

/-- The aliases in the table are the first of all. -/
theorem IsNumbered.aliases_table {names : PageNames} (h : names.IsNumbered) :
    names.table.aliases = firstNames rootAlias names.pages.length :=
  h

end PageNames

/-! ### Variables -/

namespace Program.CSharp

/-- **The variables of downloads**, among signals. -/
def downloadVariables (signals : List Signal) : List String :=
  ((signals.filter (·.kind == .download)).filterMap waitOf?).map variableOf

/-- **The first variables of downloads**, counted from one on. -/
def firstVariables (n : ℕ) : List String :=
  (List.range n).map fun k => "download" ++ toString (k + 1)

/-- Each download has a variable. -/
theorem length_downloadVariables (signals : List Signal) :
    (downloadVariables signals).length = downloadsIn signals := by
  have hwait : ∀ s ∈ signals.filter (·.kind == .download), (waitOf? s).isSome := by
    intro s hs
    have hkind : s.kind = .download := by simpa using (List.mem_filter.mp hs).2
    rw [waitOf?, hkind]
    rfl
  rw [downloadVariables, List.length_map, List.filterMap_length_eq_length.mpr hwait, downloadsIn,
    List.countP_eq_length_filter]

/-- **A class goes one further** in numbering the downloads. -/
theorem map_downloadVariable_firstNames (n : ℕ) :
    (firstNames "download" n).map downloadVariable = firstVariables n := by
  rw [firstNames, firstVariables, List.map_map]
  refine List.map_congr_left fun k _ => ?_
  rw [Function.comp_apply, downloadVariable_numbered, numbered_succ]
  rfl

/-- The number is carried, and the first download counts as number zero. -/
example : downloadVariable "download" = "download1" ∧
    downloadVariable "download999" = "download1000" := by
  decide +kernel

/-- **Downloads that are named in order have the variables in order.** -/
theorem downloadVariables_eq {signals : List Signal} {n : ℕ} (h : ∀ s ∈ signals, s.IsBound)
    (hnames : signals.flatMap Signal.downloads = firstNames "download" n) :
    downloadVariables signals = firstVariables (downloadsIn signals) := by
  have hvariables : downloadVariables signals = firstVariables n := by
    rw [downloadVariables, filterMap_waitOf?_download h, hnames, List.map_map]
    exact map_downloadVariable_firstNames n
  have hlength := length_downloadVariables signals
  rw [hvariables, firstVariables, List.length_map, List.length_range] at hlength
  rw [hvariables, hlength]

theorem nodup_firstVariables (n : ℕ) : (firstVariables n).Nodup := by
  refine List.nodup_range.map fun j k h => ?_
  exact Nat.succ.inj (repr_inj ((String.append_right_inj "download").mp h))

/-- **No page is named like a variable of a download.** -/
theorem disjoint_firstVariables (n pages : ℕ) :
    (firstVariables n).Disjoint (firstNames rootAlias pages) := by
  intro name hvariable hpage
  obtain ⟨k, -, rfl⟩ := List.mem_map.mp hvariable
  have hnot := not_isPageName_of_isOver_download (isOver_numbered "download" (k + 1))
  exact Bool.false_ne_true (hnot.symm.trans (isOver_of_mem_firstNames hpage))

end Program.CSharp

/-- A download that goes by a name. -/
def Signal.ofDownload (name : String) : Signal :=
  { kind := .download, download := some name }

theorem Signal.flatMap_ofDownload (names : List String) :
    (names.map Signal.ofDownload).flatMap Signal.downloads = names := by
  rw [List.flatMap_map]
  exact List.flatMap_singleton' names

theorem Signal.isBound_ofDownload {name : String} (h : isOver "download" name = true) :
    (Signal.ofDownload name).IsBound :=
  ⟨nofun, fun _ => ⟨name, rfl, h⟩⟩

/-- **The downloads that are named on request** have the variables in order. -/
theorem PageNames.downloadVariables_serveAll (requests : List Request) :
    let named := (({} : PageNames).serveAll requests).2
    CSharp.downloadVariables (named.map Signal.ofDownload) =
      CSharp.firstVariables named.length := by
  intro named
  have hnames : named = firstNames "download" (({} : PageNames).serveAll requests).1.downloads :=
    (({} : PageNames).grows_serveAll requests).downloads.symm
  have hbound : ∀ s ∈ named.map Signal.ofDownload, s.IsBound := by
    intro s hs
    obtain ⟨name, hname, rfl⟩ := List.mem_map.mp hs
    rw [hnames] at hname
    exact Signal.isBound_ofDownload (isOver_of_mem_firstNames hname)
  have hcount : downloadsIn (named.map Signal.ofDownload) = named.length := by
    rw [downloadsIn, List.countP_map]
    exact congrFun List.countP_true named
  rw [← hcount]
  exact CSharp.downloadVariables_eq hbound ((Signal.flatMap_ofDownload named).trans hnames)

namespace Session

variable {τ : Type}

/-- **Classes number the downloads from one on.** Whatever names are asked for, the `n`-th download
that is named has the variable of number `n + 1` in a class. In particular, whatever is posted, and
whenever the session is started and stopped, the downloads in its log have the first variables, in
order; these differ from each other and from all aliases of pages. -/
theorem run_downloadVariables [Add τ] [LE τ] [DecidableLE τ] [LT τ] [DecidableLT τ]
    (requests : List PageNames.Request) (testIdAttribute : String)
    (signalWindow syncTimeout start : τ) (clock : Clock τ) (moves : List (Move τ)) :
    let named := (({} : PageNames).serveAll requests).2
    let s := (fresh testIdAttribute signalWindow syncTimeout start clock).run moves
    let signals := s.log.actions.flatMap (·.signals)
    requests.count .nextDownload ≤ named.length ∧
      CSharp.downloadVariables (named.map Signal.ofDownload) =
        (List.range named.length).map (fun n => "download" ++ toString (n + 1)) ∧
      CSharp.downloadVariables signals =
        (List.range (downloadsIn signals)).map (fun n => "download" ++ toString (n + 1)) ∧
      (CSharp.downloadVariables signals).Nodup ∧
      (CSharp.downloadVariables signals).Disjoint s.names.table.aliases := by
  intro named s signals
  have hconsistent : s.IsConsistent := isConsistent_run
    (isConsistent_fresh testIdAttribute signalWindow syncTimeout start clock) moves
  obtain ⟨stream, settled, hrecorded⟩ := hconsistent.recorded
  have hlogged := hrecorded.published.logged
  have hvariables : CSharp.downloadVariables signals =
      CSharp.firstVariables (downloadsIn signals) := by
    refine CSharp.downloadVariables_eq (fun t ht => ?_) (List.flatMap_assoc.trans hlogged.downloads)
    obtain ⟨a, ha, ht⟩ := List.mem_flatMap.mp ht
    exact (hrecorded.isRecorded ha).signals t ht
  refine ⟨PageNames.count_nextDownload_le _ _, PageNames.downloadVariables_serveAll requests,
    hvariables, ?_, ?_⟩
  · rw [hvariables]
    exact CSharp.nodup_firstVariables _
  · rw [hvariables, hlogged.numbered.aliases_table]
    exact CSharp.disjoint_firstVariables _ _

end Session

end Scribe
