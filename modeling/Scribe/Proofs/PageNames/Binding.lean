import Scribe.Proofs.Scope
import Mathlib.Data.List.Basic
import Mathlib.Data.List.Forall2
import Mathlib.Data.List.Nodup

/-!
# Binding aliases

`Scribe.PageNames.bind` puts aliases in the place of identifiers, giving out new ones as it goes.
Names only ever grow (`Scribe.PageNames.Grows`): an alias that was given stays, and the next
download takes the next number. So an action that has been bound stays bound
(`Scribe.PageNames.Binds`) while later ones are.

The aliases are `page`, `page1`, `page2` and so on in order (`Scribe.PageNames.IsNumbered`), hence
one for one. `Scribe.PageNames.Logged` puts this together for a log that holds the bound actions one
after the other.
-/

namespace Scribe

/-! ### Numbered names -/

theorem repr_inj {m n : ℕ} (h : m.repr = n.repr) : m = n := by
  have hdigits : Nat.toDigits 10 m = Nat.toDigits 10 n := by
    rw [← Nat.toList_repr, ← Nat.toList_repr, h]
  rw [← Nat.ofDigitChars_ten_toDigits (n := m), hdigits, Nat.ofDigitChars_ten_toDigits]

theorem numbered_zero (base : String) : numbered base 0 = base := rfl

theorem numbered_succ (base : String) (n : ℕ) : numbered base (n + 1) = base ++ (n + 1).repr := rfl

/-- Different numbers give different names. -/
theorem numbered_inj {base : String} {m n : ℕ} (h : numbered base m = numbered base n) :
    m = n := by
  have hne : ∀ k : ℕ, base ≠ base ++ k.repr := by
    intro k hk
    have hlen := congrArg String.length hk
    have hpos : 0 < k.repr.length := by
      rw [← String.length_toList, Nat.toList_repr]
      exact Nat.length_toDigits_pos
    rw [String.length_append] at hlen
    omega
  cases m with
  | zero =>
    cases n with
    | zero => rfl
    | succ n => exact absurd h (hne (n + 1))
  | succ m =>
    cases n with
    | zero => exact absurd h.symm (hne (m + 1))
    | succ n => exact repr_inj ((String.append_right_inj base).mp h)

/-- The first `n` of the names over a base. -/
def firstNames (base : String) (n : ℕ) : List String :=
  (List.range n).map (numbered base)

theorem firstNames_succ (base : String) (n : ℕ) :
    firstNames base (n + 1) = firstNames base n ++ [numbered base n] := by
  simp [firstNames, List.range_succ]

theorem nodup_firstNames (base : String) (n : ℕ) : (firstNames base n).Nodup :=
  List.nodup_range.map fun _ _ => numbered_inj

/-! ### The downloads of an action -/

/-- The variable that a signal gives to a download. -/
def Signal.downloads (s : Signal) : List String :=
  if s.kind = .download then s.download.toList else []

/-- The variables that an action gives to downloads. -/
def Action.downloads (a : Action) : List String :=
  a.signals.flatMap Signal.downloads

/-- **A signal that has not been bound**: only a popup has a page, and a download has no name. -/
structure Signal.IsUnbound (s : Signal) : Prop where
  popup : s.popup.isSome → s.kind = .popup
  download : s.download = none

namespace PageNames

variable {old mid new : PageNames}

/-! ### Growing names -/

/-- **The aliases are numbered** in the order in which they were given. -/
def IsNumbered (given : PageNames) : Prop :=
  given.pages.map (·.2) = firstNames rootAlias given.pages.length

/-- **Names have grown**: what was given stays, and `downloads` are the variables given since. -/
structure Grows (old new : PageNames) (downloads : List String) : Prop where
  keeps : ∀ id given, old.aliasOf? id = some given → new.aliasOf? id = some given
  numbered : old.IsNumbered → new.IsNumbered
  downloads : firstNames "download" new.downloads =
    firstNames "download" old.downloads ++ downloads

theorem Grows.refl (given : PageNames) : given.Grows given [] :=
  ⟨fun _ _ h => h, id, by simp⟩

theorem Grows.trans {d e : List String} (h : old.Grows mid d) (h' : mid.Grows new e) :
    old.Grows new (d ++ e) :=
  ⟨fun id given hid => h'.keeps id given (h.keeps id given hid),
    fun hn => h'.numbered (h.numbered hn), by rw [h'.downloads, h.downloads, List.append_assoc]⟩

theorem mem_of_lookup {l : List (String × String)} {id given : String}
    (h : l.lookup id = some given) : (id, given) ∈ l := by
  obtain ⟨before, after, rfl, -⟩ := List.lookup_eq_some_iff.mp h
  simp

/-- No alias stands for two pages. -/
theorem IsNumbered.inj {given : PageNames} (h : given.IsNumbered) (p q r : String)
    (hp : given.aliasOf? p = some r) (hq : given.aliasOf? q = some r) : p = q := by
  have hnodup : (given.pages.map (·.2)).Nodup := by
    rw [h]
    exact nodup_firstNames _ _
  have hpq := List.inj_on_of_nodup_map hnodup (mem_of_lookup hp) (mem_of_lookup hq) rfl
  exact congrArg Prod.fst hpq

theorem grows_add {id : String} (h : old.aliasOf? id = none) :
    old.Grows (old.add id).2 [] ∧ (old.add id).2.aliasOf? id = some (old.add id).1 := by
  have hlookup : ∀ other, (old.add id).2.aliasOf? other =
      (old.aliasOf? other).or ([(id, (old.add id).1)].lookup other) := by
    intro other
    exact List.lookup_append
  refine ⟨⟨fun other given hother => ?_, fun hn => ?_, by simp [add]⟩, ?_⟩
  · rw [hlookup, hother]
    rfl
  · simp only [IsNumbered, add, List.map_append, List.length_append, List.map_cons, List.map_nil,
      List.length_singleton, firstNames_succ]
    rw [hn]
  · rw [hlookup, h]
    simp

theorem grows_bindPage (old : PageNames) (id : String) :
    old.Grows (old.bindPage id).2 [] ∧
      (old.bindPage id).2.aliasOf? id = some (old.bindPage id).1 := by
  rw [bindPage]
  cases h : old.aliasOf? id with
  | some given => exact ⟨.refl old, h⟩
  | none => exact grows_add h

/-! ### Bound signals and actions -/

/-- **The second signal is the first**, bound: its popup goes by its alias, and a download has a
name. -/
structure BindsSignal (given : PageNames) (s t : Signal) : Prop where
  kind : t.kind = s.kind
  popup : s.popup.map given.aliasOf? = t.popup.map some
  download : t.download.isSome ↔ t.kind = .download
  dismiss : t.dismiss = s.dismiss
  url : t.url = s.url

/-- **The second action is the first**, bound: its page goes by its alias, its signals are bound,
and all the rest is the same. -/
structure Binds (given : PageNames) (a b : Action) : Prop where
  page : given.aliasOf? a.page = some b.page
  signals : List.Forall₂ given.BindsSignal a.signals b.signals
  rest : { b with page := a.page, signals := a.signals, sequence := a.sequence } = a

theorem BindsSignal.mono {d : List String} {s t : Signal} (h : old.BindsSignal s t)
    (hgrows : old.Grows new d) : new.BindsSignal s t := by
  refine ⟨h.kind, ?_, h.download, h.dismiss, h.url⟩
  have hpopup := h.popup
  cases hs : s.popup with
  | none => simpa [hs] using hpopup
  | some id =>
    cases ht : t.popup with
    | none => simp [hs, ht] at hpopup
    | some given =>
      simp only [hs, ht, Option.map_some, Option.some.injEq] at hpopup ⊢
      exact hgrows.keeps id given hpopup

theorem Binds.mono {d : List String} {a b : Action} (h : old.Binds a b)
    (hgrows : old.Grows new d) : new.Binds a b :=
  ⟨hgrows.keeps _ _ h.page, h.signals.imp fun _ _ hst => hst.mono hgrows, h.rest⟩

theorem grows_bindSignal (old : PageNames) {s : Signal} (hs : s.IsUnbound) :
    old.Grows (old.bindSignal s).2 (old.bindSignal s).1.downloads ∧
      (old.bindSignal s).2.BindsSignal s (old.bindSignal s).1 := by
  obtain ⟨kind, popup, download, dismiss, url⟩ := s
  obtain ⟨hpopup, hdownload⟩ := hs
  dsimp only at hpopup hdownload
  subst hdownload
  cases popup with
  | some id =>
    obtain rfl := hpopup rfl
    obtain ⟨hgrows, hid⟩ := grows_bindPage old id
    refine ⟨hgrows, rfl, ?_, ?_, rfl, rfl⟩
    · exact congrArg some hid
    · simp [bindSignal]
  | none =>
    cases kind with
    | download =>
      refine ⟨⟨fun _ _ h => h, id, ?_⟩, rfl, rfl, ?_, rfl, rfl⟩
      · exact firstNames_succ _ _
      · simp [bindSignal]
    | popup => exact ⟨.refl old, rfl, rfl, by simp [bindSignal], rfl, rfl⟩
    | dialog => exact ⟨.refl old, rfl, rfl, by simp [bindSignal], rfl, rfl⟩
    | navigation => exact ⟨.refl old, rfl, rfl, by simp [bindSignal], rfl, rfl⟩

theorem grows_bindSignals (old : PageNames) {signals : List Signal}
    (hs : ∀ s ∈ signals, s.IsUnbound) :
    old.Grows (old.bindSignals signals).2
        ((old.bindSignals signals).1.flatMap Signal.downloads) ∧
      List.Forall₂ (old.bindSignals signals).2.BindsSignal signals (old.bindSignals signals).1 := by
  induction signals generalizing old with
  | nil => exact ⟨.refl old, .nil⟩
  | cons s rest ih =>
    obtain ⟨hgrows, hbinds⟩ := grows_bindSignal old (hs s List.mem_cons_self)
    obtain ⟨hgrows', hbinds'⟩ := ih (old.bindSignal s).2
      fun t ht => hs t (List.mem_cons_of_mem _ ht)
    exact ⟨hgrows.trans hgrows', .cons (hbinds.mono hgrows') hbinds'⟩

theorem grows_release (given : PageNames) (id : String) : given.Grows (given.release id) [] := by
  rw [release]
  split
  · exact ⟨fun _ _ h => h, fun h => h, by simp⟩
  · exact .refl given

/-- **Binding an action** makes the names grow by its downloads. -/
theorem grows_bind (old : PageNames) {a : Action} (ha : ∀ s ∈ a.signals, s.IsUnbound) :
    old.Grows (old.bind a).2 (old.bind a).1.downloads ∧
      (old.bind a).2.Binds a (old.bind a).1 := by
  obtain ⟨hpage, hid⟩ := grows_bindPage old a.page
  obtain ⟨hsignals, hbinds⟩ := grows_bindSignals (old.bindPage a.page).2 ha
  -- an action that closes its page releases the alias, which is kept
  have hlast : ((old.bindPage a.page).2.bindSignals a.signals).2.Grows (old.bind a).2 [] := by
    simp only [bind]
    split
    · exact grows_release _ _
    · exact .refl _
  have hall := (hpage.trans hsignals).trans hlast
  rw [List.nil_append, List.append_nil] at hall
  refine ⟨hall, (hsignals.trans hlast).keeps _ _ hid, ?_, rfl⟩
  exact hbinds.imp fun _ _ hst => hst.mono hlast

/-! ### Logs under aliases -/

/-- **The log holds the actions under their aliases**, one after the other. -/
structure Logged (given : PageNames) (actions log : List Action) : Prop where
  numbered : given.IsNumbered
  binds : List.Forall₂ given.Binds actions log
  /-- The downloads are numbered in order. -/
  downloads : log.flatMap Action.downloads = firstNames "download" given.downloads
  /-- The first action is on the first page. -/
  root : ∀ a ∈ log.head?, a.page = rootAlias
  /-- Aliases are given only for actions in the log. -/
  pages : given.pages = [] ↔ log = []

theorem Logged.empty : Logged {} [] [] :=
  ⟨rfl, .nil, rfl, by simp, by simp⟩

/-- **One more action** under the next number. -/
theorem Logged.bind {actions log : List Action} {a : Action} (h : old.Logged actions log)
    (ha : ∀ s ∈ a.signals, s.IsUnbound) (sequence : Int) :
    (old.bind a).2.Logged (actions ++ [a])
      (log ++ [{ (old.bind a).1 with sequence := sequence }]) := by
  obtain ⟨hgrows, hbinds⟩ := grows_bind old ha
  refine ⟨hgrows.numbered h.numbered, ?_, ?_, ?_, ?_⟩
  · have hlast : (old.bind a).2.Binds a { (old.bind a).1 with sequence := sequence } :=
      ⟨hbinds.page, hbinds.signals, hbinds.rest⟩
    exact List.rel_append (h.binds.imp fun _ _ hab => hab.mono hgrows) (.cons hlast .nil)
  · rw [List.flatMap_append, h.downloads, hgrows.downloads]
    simp [Action.downloads]
  -- the first action of all meets no aliases, so its page is given the first one
  · cases hlog : log with
    | nil =>
      have hpages : old.pages = [] := h.pages.mpr hlog
      intro b hb
      obtain rfl := Option.some.inj hb
      simp [PageNames.bind, bindPage, aliasOf?, add, hpages, numbered_zero]
    | cons b rest =>
      intro c hc
      exact h.root c (hlog ▸ hc)
  · have hpages : (old.bind a).2.pages ≠ [] := by
      intro hpages
      have hpage := hbinds.page
      rw [aliasOf?, hpages] at hpage
      cases hpage
    simp [hpages]

/-! ### Pages under aliases -/

variable {given : PageNames}

theorem BindsSignal.introduces {s t : Signal} (h : given.BindsSignal s t) :
    s.introduces.map given.aliasOf? = t.introduces.map some := by
  have hpopup := h.popup
  rw [Signal.introduces, Signal.introduces, h.kind]
  split
  · cases hs : s.popup <;> cases ht : t.popup <;> simp_all
  · rfl

theorem introduces_of_bindsSignal {signals bound : List Signal}
    (h : List.Forall₂ given.BindsSignal signals bound) :
    (signals.flatMap Signal.introduces).map given.aliasOf? =
      (bound.flatMap Signal.introduces).map some := by
  induction h with
  | nil => rfl
  | cons hst _ ih => simp only [List.flatMap_cons, List.map_append, hst.introduces, ih]

theorem Binds.kind {a b : Action} (h : given.Binds a b) : b.kind = a.kind := by
  rw [← h.rest]

/-- A bound action uses the pages as before, under their aliases. -/
theorem Binds.use {a b : Action} (h : given.Binds a b) :
    PageUse.Renames given.aliasOf? a.use b.use := by
  have hsignals := introduces_of_bindsSignal h.signals
  refine ⟨h.page, ?_, ?_, ?_⟩
  · simp only [Action.use, Action.introduces, List.map_append, hsignals, h.kind]
    split
    · simp [h.page]
    · rfl
  · simp [Action.use, h.kind]
  · simp [Action.use, h.kind]

/-- **A log under aliases is in scope** if its actions are under their identifiers. -/
theorem Logged.inScope {actions log : List Action} (h : given.Logged actions log)
    (hscope : Scoped (actions.map Action.use)) : Scoped (log.map Action.use) := by
  refine hscope.rename h.numbered.inj ?_
  exact List.forall₂_map_left_iff.mpr (List.forall₂_map_right_iff.mpr
    (h.binds.imp fun _ _ hab => hab.use))

end PageNames

end Scribe
