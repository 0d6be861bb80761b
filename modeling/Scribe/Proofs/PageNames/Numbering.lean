import Scribe.Proofs.PageNames.Binding
import Mathlib.Data.List.Induction

/-!
# The numbering of aliases

Actions mention pages: each its own, and then those that its popups opened. Read in order, the pages
are numbered as they are first mentioned, and the number of a page is in its alias, wherever it is
mentioned. Downloads are numbered as they come.

`Scribe.Action.under` says what an action looks like under aliases, without giving any out: the
aliases are a function of the page, and the downloads before the action are counted. The names that
have been given out are described by what has been mentioned (`Scribe.PageNames.after`), and each
step of binding mentions a little more. The main statement is `Scribe.PageNames.bindAll_numbered`.
-/

namespace Scribe

/-! ### Mentions -/

/-- **The pages that an action mentions**: its own, then its popups. -/
def Action.mentions (a : Action) : List String :=
  a.page :: a.signals.flatMap Signal.introduces

/-- **The pages that actions mention**, each once, in the order in which they are first mentioned.
-/
def pagesIn (actions : List Action) : List String :=
  (actions.flatMap Action.mentions).eraseDups

/-- The pages that actions close. -/
def closedIn (actions : List Action) : List String :=
  (actions.filter (·.kind == .closePage)).map (·.page)

/-- How many signals are downloads. -/
def downloadsIn (signals : List Signal) : ℕ :=
  signals.countP (·.kind == .download)

/-- **The alias of a page among others**, by its number, counted from zero on. -/
def aliasAmong (pages : List String) (id : String) : String :=
  numbered rootAlias (pages.idxOf id)

/-- **A signal under aliases**, when `before` downloads come before it. -/
def Signal.under (given : String → String) (before : ℕ) (s : Signal) : Signal :=
  match s.kind with
  | .popup => { s with popup := s.popup.map given }
  | .download => { s with download := some (numbered "download" before) }
  | .dialog | .navigation => s

/-- **An action under aliases**, when `before` downloads come before it. -/
def Action.under (given : String → String) (before : ℕ) (a : Action) : Action :=
  { a with
    page := given a.page
    signals := a.signals.mapIdx fun j s =>
      s.under given (before + downloadsIn (a.signals.take j)) }

theorem downloadsIn_append (signals more : List Signal) :
    downloadsIn (signals ++ more) = downloadsIn signals + downloadsIn more :=
  List.countP_append

/-! ### Distinct pages -/

theorem eraseDups_concat (l : List String) (id : String) :
    (l ++ [id]).eraseDups = if id ∈ l then l.eraseDups else l.eraseDups ++ [id] := by
  rw [List.eraseDups_append, List.removeAll]
  by_cases h : id ∈ l <;> simp [h, List.eraseDups_cons]

theorem nodup_eraseDups (l : List String) : l.eraseDups.Nodup := by
  induction l using List.reverseRecOn with
  | nil => simp
  | append_singleton l id ih =>
    rw [eraseDups_concat]
    split
    · exact ih
    · next h =>
      rw [← List.concat_eq_append]
      exact ih.concat (by simpa using h)

/-- A page that has been mentioned keeps its number. -/
theorem aliasAmong_append {l : List String} {id : String} (h : id ∈ l) (more : List String) :
    aliasAmong (l ++ more).eraseDups id = aliasAmong l.eraseDups id := by
  rw [aliasAmong, aliasAmong, List.eraseDups_append,
    List.idxOf_append_of_mem (List.mem_eraseDups.mpr h)]

theorem aliasAmong_getElem? {pages : List String} (h : pages.Nodup) {k : ℕ} {id : String}
    (hk : pages[k]? = some id) : aliasAmong pages id = numbered rootAlias k := by
  obtain ⟨hlt, rfl⟩ := List.getElem?_eq_some_iff.mp hk
  rw [aliasAmong, h.idxOf_getElem]

/-- **Two pages have the same alias** only if they are the same. -/
theorem aliasAmong_inj {pages : List String} {p q : String} (hp : p ∈ pages) :
    aliasAmong pages p = aliasAmong pages q ↔ p = q :=
  ⟨fun h => (List.idxOf_inj hp).mp (numbered_inj h), fun h => h ▸ rfl⟩

/-! ### Names after mentions -/

namespace PageNames

/-- **The names after some pages were mentioned**, some of them closed, and some downloads counted.
-/
def after (mentioned released : List String) (downloads : ℕ) : PageNames where
  pages := mentioned.eraseDups.mapIdx fun k id => (id, numbered rootAlias k)
  released := released
  downloads := downloads

variable {l r : List String} {d : ℕ}

theorem lookup_mapIdx {pages : List String} {id : String} (f : ℕ → String) :
    (pages.mapIdx fun k id => (id, f k)).lookup id =
      if id ∈ pages then some (f (pages.idxOf id)) else none := by
  induction pages generalizing f with
  | nil => rfl
  | cons page rest ih =>
    rw [List.mapIdx_cons, List.lookup_cons]
    by_cases h : id = page
    · simp [h]
    · have hne : (page == id) = false := by simpa using Ne.symm h
      simp [h, ih, List.idxOf_cons, hne, beq_eq_false_iff_ne.mpr h]

theorem aliasOf?_after {id : String} :
    (after l r d).aliasOf? id =
      if id ∈ l then some (aliasAmong l.eraseDups id) else none := by
  rw [aliasOf?, after, lookup_mapIdx]
  simp only [List.mem_eraseDups]
  rfl

/-- **A page is mentioned.** -/
theorem bindPage_after (id : String) (more : List String) :
    (after l r d).bindPage id =
      (aliasAmong (l ++ id :: more).eraseDups id, after (l ++ [id]) r d) := by
  have hgiven :
      aliasAmong (l ++ id :: more).eraseDups id = aliasAmong (l ++ [id]).eraseDups id := by
    rw [← aliasAmong_append (l := l ++ [id]) (by simp) more, List.append_assoc]
    rfl
  rw [bindPage, aliasOf?_after, hgiven]
  by_cases h : id ∈ l
  · rw [if_pos h, after, after, eraseDups_concat, if_pos h]
  · have hnew : id ∉ l.eraseDups := fun hmem => h (List.mem_eraseDups.mp hmem)
    rw [if_neg h, add, after, after, eraseDups_concat, if_neg h, List.mapIdx_append, aliasAmong,
      List.idxOf_append_of_notMem hnew]
    simp

/-- **A signal is bound.** -/
theorem bindSignal_after {s : Signal} (hs : s.kind = .download → s.download = none)
    (more : List String) :
    (after l r d).bindSignal s =
      (s.under (aliasAmong (l ++ s.introduces ++ more).eraseDups) d,
        after (l ++ s.introduces) r (d + downloadsIn [s])) := by
  obtain ⟨kind, popup, download, dismiss, url⟩ := s
  cases kind with
  | popup =>
    cases popup with
    | none => simp [bindSignal, Signal.under, Signal.introduces, downloadsIn]
    | some id =>
      have hpage := bindPage_after (l := l) (r := r) (d := d) id more
      simp [bindSignal, hpage, Signal.under, Signal.introduces, downloadsIn]
  | download =>
    obtain rfl := hs rfl
    simp [bindSignal, nextDownload, Signal.under, Signal.introduces, downloadsIn, after]
  | dialog => simp [bindSignal, Signal.under, Signal.introduces, downloadsIn]
  | navigation => simp [bindSignal, Signal.under, Signal.introduces, downloadsIn]

theorem bindSignals_after {signals : List Signal}
    (hsignals : ∀ s ∈ signals, s.kind = .download → s.download = none) (more : List String) :
    (after l r d).bindSignals signals =
      (signals.mapIdx fun j s => s.under
          (aliasAmong (l ++ signals.flatMap Signal.introduces ++ more).eraseDups)
          (d + downloadsIn (signals.take j)),
        after (l ++ signals.flatMap Signal.introduces) r (d + downloadsIn signals)) := by
  induction signals generalizing l d with
  | nil => simp [bindSignals, downloadsIn]
  | cons s rest ih =>
    have hfirst := bindSignal_after (l := l) (r := r) (d := d)
      (hsignals s List.mem_cons_self) (rest.flatMap Signal.introduces ++ more)
    have hrest := ih (l := l ++ s.introduces) (d := d + downloadsIn [s])
      fun t ht => hsignals t (List.mem_cons_of_mem _ ht)
    have hcount (more : List Signal) :
        d + downloadsIn [s] + downloadsIn more = d + downloadsIn (s :: more) := by
      rw [Nat.add_assoc, ← downloadsIn_append, List.singleton_append]
    simp only [List.append_assoc] at hfirst hrest
    simp only [bindSignals, hfirst, hrest, hcount, List.mapIdx_cons, List.flatMap_cons,
      List.append_assoc, List.take_zero, List.take_succ_cons]
    rfl

/-- **An action is bound.** -/
theorem bind_after {a : Action} (ha : ∀ s ∈ a.signals, s.kind = .download → s.download = none)
    (more : List String) :
    ((after l r d).bind a).1 =
        a.under (aliasAmong (l ++ a.mentions ++ more).eraseDups) d ∧
      ∃ closed, ((after l r d).bind a).2 =
          after (l ++ a.mentions) closed (d + downloadsIn a.signals) ∧
        ∀ id, id ∈ closed ↔ id ∈ r ∨ id ∈ closedIn [a] := by
  have hpage := bindPage_after (l := l) (r := r) (d := d) a.page
    (a.signals.flatMap Signal.introduces ++ more)
  have hsignals := bindSignals_after (l := l ++ [a.page]) (r := r) (d := d) ha more
  simp only [List.append_assoc, List.singleton_append] at hsignals
  simp only [PageNames.bind, hpage, hsignals, Action.mentions, List.append_assoc, List.cons_append]
  refine ⟨rfl, ?_⟩
  split
  · next hclose =>
    have hknown : ((after (l ++ a.page :: a.signals.flatMap Signal.introduces) r
        (d + downloadsIn a.signals)).aliasOf? a.page).isSome := by
      rw [aliasOf?_after, if_pos (by simp)]
      rfl
    have hclosed : closedIn [a] = [a.page] := by simp [closedIn, hclose]
    rw [release, hknown, hclosed]
    split
    · exact ⟨r ++ [a.page], rfl, by simp⟩
    · next hreleased =>
      -- the page has an alias, so it was closed before
      have hmem : a.page ∈ r := by simpa [isReleased, after] using hreleased
      refine ⟨r, rfl, fun id => ⟨Or.inl, ?_⟩⟩
      rintro (h | h)
      · exact h
      · exact List.mem_singleton.mp h ▸ hmem
  · next hclose =>
    have hnone : closedIn [a] = [] := by simp [closedIn, hclose]
    exact ⟨r, rfl, by simp [hnone]⟩

/-- **Actions are bound**, one after the other. -/
theorem bindAll_after {actions : List Action}
    (hactions : ∀ a ∈ actions, ∀ s ∈ a.signals, s.kind = .download → s.download = none) :
    ((after l r d).bindAll actions).1 =
        actions.mapIdx (fun i a => a.under
          (aliasAmong (l ++ actions.flatMap Action.mentions).eraseDups)
          (d + downloadsIn ((actions.take i).flatMap (·.signals)))) ∧
      ∃ closed downloads, ((after l r d).bindAll actions).2 =
          after (l ++ actions.flatMap Action.mentions) closed downloads ∧
        ∀ id, id ∈ closed ↔ id ∈ r ∨ id ∈ closedIn actions := by
  induction actions generalizing l r d with
  | nil => exact ⟨rfl, r, d, by simp [bindAll], by simp [closedIn]⟩
  | cons a rest ih =>
    obtain ⟨hfirst, closed, hnames, hclosed⟩ := bind_after (l := l) (r := r) (d := d)
      (hactions a List.mem_cons_self) (rest.flatMap Action.mentions)
    obtain ⟨hrest, closed', downloads, hnames', hclosed'⟩ := ih (l := l ++ a.mentions)
      (r := closed) (d := d + downloadsIn a.signals)
      fun b hb => hactions b (List.mem_cons_of_mem _ hb)
    refine ⟨?_, closed', downloads, ?_, fun id => ?_⟩
    · simp only [bindAll, hnames, hfirst, hrest, List.mapIdx_cons, List.flatMap_cons,
        List.append_assoc, List.take_zero, List.take_succ_cons, downloadsIn_append, Nat.add_assoc]
      rfl
    · simp only [bindAll, hnames, hnames', List.flatMap_cons, List.append_assoc]
    · have hsplit : closedIn (a :: rest) = closedIn [a] ++ closedIn rest := by
        rw [closedIn, closedIn, closedIn, ← List.map_append, ← List.filter_append]
        rfl
      rw [hclosed', hclosed, hsplit, List.mem_append, or_assoc]

theorem map_fst_mapIdx (pages : List String) (f : ℕ → String) :
    (pages.mapIdx fun k id => (id, f k)).map (·.1) = pages := by
  induction pages generalizing f with
  | nil => rfl
  | cons page rest ih => rw [List.mapIdx_cons, List.map_cons, ih]

theorem table_after (l r : List String) (d : ℕ) :
    (after l r d).table =
      { pages := l.eraseDups.mapIdx fun k id => (id, numbered rootAlias k)
        root := if l.eraseDups = [] then none else some rootAlias
        released := l.eraseDups.filter (r.contains ·) } := by
  rw [table, after]
  congr 1
  · cases l.eraseDups with
    | nil => rfl
    | cons page rest => simp [List.mapIdx_cons, numbered_zero]
  · rw [map_fst_mapIdx]
    rfl

/-- **Aliases are numbered in the order of first mention**, when no download has been named yet.
Reading the actions in order, first the page of each and then its popups, the page of number `k`
goes by the alias of that number wherever it is mentioned, also after it was closed; so two mentions
have the same alias exactly if they are of the same page. The downloads are numbered as they come,
and nothing else is changed. The table lists the pages with their aliases in order; its root is the
first alias, if there is any, and the released pages are those that were closed. -/
theorem bindAll_numbered (actions : List Action)
    (hactions : ∀ a ∈ actions, ∀ s ∈ a.signals, s.kind = .download → s.download = none) :
    let pages := pagesIn actions
    let given := aliasAmong pages
    (({} : PageNames).bindAll actions).1 =
        actions.mapIdx (fun i a => a.under given
          (downloadsIn ((actions.take i).flatMap (·.signals)))) ∧
      (∀ k id, pages[k]? = some id → given id = numbered rootAlias k) ∧
      (∀ p ∈ pages, ∀ q ∈ pages, given p = given q ↔ p = q) ∧
      (({} : PageNames).bindAll actions).2.table =
        { pages := pages.mapIdx fun k id => (id, numbered rootAlias k)
          root := if pages = [] then none else some rootAlias
          released := pages.filter ((closedIn actions).contains ·) } := by
  intro pages given
  obtain ⟨hbound, closed, downloads, hnames, hclosed⟩ :=
    bindAll_after (l := []) (r := []) (d := 0) hactions
  rw [show after [] [] 0 = {} from rfl] at hbound hnames
  simp only [List.nil_append, Nat.zero_add] at hbound hnames
  refine ⟨hbound, fun k id hk => aliasAmong_getElem? (nodup_eraseDups _) hk,
    fun p hp q _ => aliasAmong_inj hp, ?_⟩
  have hmem : (closed.contains ·) = ((closedIn actions).contains ·) := funext fun id =>
    Bool.eq_iff_iff.mpr (by simpa using hclosed id)
  rw [hnames, table_after, hmem]
  rfl

/-- A popup is opened with a download, and closed, and both pages are mentioned again. -/
theorem bindAll_numbered_popup :
    let actions : List Action :=
      [⟨.click, "b", none, [], none, none, none, none, none, "left", 1, [],
        [⟨.download, none, none, true, none⟩, ⟨.popup, some "a", none, true, none⟩], [], -1⟩,
        { kind := .closePage, page := "a" }, { kind := .click, page := "b" },
        { kind := .click, page := "a", signals := [{ kind := .download }] }]
    (∀ a ∈ actions, ∀ s ∈ a.signals, s.kind = .download → s.download = none) ∧
      (({} : PageNames).bindAll actions).1.map (·.page) = ["page", "page1", "page", "page1"] ∧
      (({} : PageNames).bindAll actions).2.table =
        ⟨[("b", "page"), ("a", "page1")], some "page", ["a"]⟩ := by
  intro actions
  have hactions : ∀ a ∈ actions, ∀ s ∈ a.signals, s.kind = .download → s.download = none := by
    decide
  obtain ⟨hbound, -, -, htable⟩ := bindAll_numbered actions hactions
  exact ⟨hactions, by rw [hbound]; decide +kernel, by rw [htable]; decide +kernel⟩

end PageNames

end Scribe
