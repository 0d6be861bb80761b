import Scribe.Candidate
import Scribe.PageNames
import Mathlib.Data.List.Basic
import Mathlib.Data.List.Forall2
import Mathlib.Data.List.Nodup

/-!
# The scope of pages

What is recorded names pages, and a page has to be introduced before it is named. Only an `openPage`
and a popup introduce one. `Scribe.Scoped` says so of a sequence of **uses**
(`Scribe.PageUse`), which are all that matters about an action or a candidate here, so that the
stream of candidates and the log can be held against the same rule:

* no page is introduced twice;
* whatever opens no page is on a page that something earlier introduced;
* nothing is on a page that something earlier closed.

`Scribe.WellScoped` is what follows for a log whose first page is `page`. Names can be exchanged for
others, one for one (`Scribe.Scoped.rename`).
-/

namespace Scribe

/-! ### Uses -/

/-- The page that a signal introduces. -/
def Signal.introduces (s : Signal) : List String :=
  if s.kind = .popup then s.popup.toList else []

/-- **The pages that an action introduces**: the one that it opens, and its popups. -/
def Action.introduces (a : Action) : List String :=
  (if a.kind = .openPage then [a.page] else []) ++ a.signals.flatMap Signal.introduces

/-- The pages that an action names: the one that it is on, and its popups. -/
def Action.pages (a : Action) : List String :=
  a.page :: a.signals.filterMap (·.popup)

/-- **A use of pages.** -/
structure PageUse where
  /-- The page that something is on. -/
  page : String
  /-- The pages that it introduces. -/
  introduces : List String
  /-- Whether it opens its own page. -/
  opens : Bool
  /-- Whether it closes its page. -/
  closes : Bool

/-- The use that an action makes of pages. -/
def Action.use (a : Action) : PageUse :=
  ⟨a.page, a.introduces, a.kind == .openPage, a.kind == .closePage⟩

/-- The use that a candidate makes of pages. -/
def Candidate.use : Candidate → PageUse
  | .action c => c.action.use
  | .signal c => ⟨c.page, c.signal.introduces, false, false⟩
  | .foreign => ⟨"", [], false, false⟩

/-- The pages that a sequence of uses introduces. -/
def introduced (uses : List PageUse) : List String :=
  uses.flatMap (·.introduces)

@[simp] theorem introduced_nil : introduced [] = [] := rfl

@[simp] theorem introduced_append (uses more : List PageUse) :
    introduced (uses ++ more) = introduced uses ++ introduced more := by
  simp [introduced]

@[simp] theorem introduced_singleton (u : PageUse) : introduced [u] = u.introduces := by
  simp [introduced]

/-! ### Scoped sequences -/

/-- **A scoped sequence of uses.** -/
structure Scoped (uses : List PageUse) : Prop where
  /-- No page is introduced twice. -/
  once : (introduced uses).Nodup
  /-- What opens no page is on one that was introduced earlier. -/
  earlier : ∀ (i : ℕ) (u : PageUse), uses[i]? = some u → u.opens = false →
    ∃ j < i, ∃ v : PageUse, uses[j]? = some v ∧ u.page ∈ v.introduces
  /-- Nothing is on a page that was closed earlier. -/
  closed : ∀ (i j : ℕ) (u v : PageUse), uses[i]? = some u → uses[j]? = some v → i < j →
    u.closes = true → v.page ≠ u.page

theorem Scoped.nil : Scoped [] :=
  ⟨by simp, by simp, by simp⟩

theorem mem_introduced_iff {uses : List PageUse} {p : String} :
    p ∈ introduced uses ↔ ∃ (j : ℕ) (v : PageUse), uses[j]? = some v ∧ p ∈ v.introduces := by
  rw [introduced, List.mem_flatMap]
  constructor
  · rintro ⟨v, hv, hp⟩
    obtain ⟨j, hj⟩ := List.mem_iff_getElem?.mp hv
    exact ⟨j, v, hj, hp⟩
  · rintro ⟨j, v, hj, hp⟩
    exact ⟨v, List.mem_iff_getElem?.mpr ⟨j, hj⟩, hp⟩

/-- The last of a sequence, or one before it. -/
theorem getElem?_snoc {α : Type} {l : List α} {a b : α} {i : ℕ} :
    (l ++ [a])[i]? = some b ↔ l[i]? = some b ∨ (i = l.length ∧ b = a) := by
  rw [List.getElem?_append]
  split
  · next h => simp [Nat.ne_of_lt h]
  · next h =>
    rw [List.getElem?_eq_none (Nat.not_lt.mp h), List.getElem?_singleton]
    constructor
    · intro hb
      split at hb
      · next h' => exact Or.inr ⟨by omega, (Option.some.inj hb).symm⟩
      · cases hb
    · rintro (hb | ⟨rfl, rfl⟩)
      · cases hb
      · simp

theorem lt_length_of_getElem? {α : Type} {l : List α} {a : α} {i : ℕ} (h : l[i]? = some a) :
    i < l.length :=
  (List.getElem?_eq_some_iff.mp h).1

/-- **One more use.** -/
theorem Scoped.snoc {uses : List PageUse} {u : PageUse} (h : Scoped uses)
    (hnodup : u.introduces.Nodup) (hnew : ∀ p ∈ u.introduces, p ∉ introduced uses)
    (hknown : u.opens = false → u.page ∈ introduced uses)
    (hopen : ∀ v ∈ uses, v.closes = true → u.page ≠ v.page) : Scoped (uses ++ [u]) where
  once := by
    rw [introduced_append, introduced_singleton, List.nodup_append]
    refine ⟨h.once, hnodup, fun p hp q hq hpq => hnew q hq ?_⟩
    exact hpq ▸ hp
  earlier i v hv hopens := by
    rcases getElem?_snoc.mp hv with hv | ⟨rfl, rfl⟩
    · obtain ⟨j, hj, w, hw, hp⟩ := h.earlier i v hv hopens
      exact ⟨j, hj, w, getElem?_snoc.mpr (Or.inl hw), hp⟩
    · obtain ⟨j, w, hw, hp⟩ := mem_introduced_iff.mp (hknown hopens)
      exact ⟨j, lt_length_of_getElem? hw, w, getElem?_snoc.mpr (Or.inl hw), hp⟩
  closed i j v w hv hw hij hcloses := by
    rcases getElem?_snoc.mp hv with hold | ⟨rfl, rfl⟩
    · rcases getElem?_snoc.mp hw with hw | ⟨-, rfl⟩
      · exact h.closed i j v w hold hw hij hcloses
      · exact hopen v (List.mem_iff_getElem?.mpr ⟨i, hold⟩) hcloses
    · have hj := lt_length_of_getElem? hw
      rw [List.length_append, List.length_singleton] at hj
      omega

/-- A page has a single place where it is introduced. -/
theorem Scoped.place_unique {uses : List PageUse} (h : Scoped uses) {i j : ℕ} {u v : PageUse}
    {p : String} (hu : uses[i]? = some u) (hv : uses[j]? = some v) (hpu : p ∈ u.introduces)
    (hpv : p ∈ v.introduces) : i = j := by
  have hdisjoint := (List.nodup_flatMap.mp h.once).2
  rw [List.pairwise_iff_getElem] at hdisjoint
  obtain ⟨hi, rfl⟩ := List.getElem?_eq_some_iff.mp hu
  obtain ⟨hj, rfl⟩ := List.getElem?_eq_some_iff.mp hv
  rcases Nat.lt_trichotomy i j with hij | hij | hji
  · exact absurd hpv (hdisjoint i j hi hj hij hpu)
  · exact hij
  · exact absurd hpu (hdisjoint j i hj hi hji hpv)

/-- The beginning of a scoped sequence. -/
theorem Scoped.of_append {uses more : List PageUse} (h : Scoped (uses ++ more)) : Scoped uses where
  once := by
    have honce := h.once
    rw [introduced_append] at honce
    exact (List.nodup_append.mp honce).1
  earlier i u hu hopens := by
    have hi := lt_length_of_getElem? hu
    have hu' : (uses ++ more)[i]? = some u := by
      rw [List.getElem?_append_left hi]
      exact hu
    obtain ⟨j, hj, v, hv, hp⟩ := h.earlier i u hu' hopens
    rw [List.getElem?_append_left (Nat.lt_trans hj hi)] at hv
    exact ⟨j, hj, v, hv, hp⟩
  closed i j u v hu hv := by
    refine h.closed i j u v ?_ ?_
    · rw [List.getElem?_append_left (lt_length_of_getElem? hu)]
      exact hu
    · rw [List.getElem?_append_left (lt_length_of_getElem? hv)]
      exact hv

/-! ### Other names -/

/-- The second use is the first under other names. -/
structure PageUse.Renames (name : String → Option String) (u v : PageUse) : Prop where
  page : name u.page = some v.page
  introduces : u.introduces.map name = v.introduces.map some
  opens : v.opens = u.opens
  closes : v.closes = u.closes

variable {name : String → Option String} {uses renamed : List PageUse}

theorem introduced_rename (h : List.Forall₂ (PageUse.Renames name) uses renamed) :
    (introduced uses).map name = (introduced renamed).map some := by
  induction h with
  | nil => rfl
  | @cons u v uses renamed huv _ ih =>
    simp only [introduced, List.flatMap_cons, List.map_append] at ih ⊢
    rw [huv.introduces, ih]

/-- What stands at a place of the second list stands for what is at that place of the first. -/
theorem forall₂_getElem? {α β : Type} {R : α → β → Prop} {l : List α} {m : List β}
    (h : List.Forall₂ R l m) {i : ℕ} {b : β} (hb : m[i]? = some b) :
    ∃ a, l[i]? = some a ∧ R a b := by
  induction h generalizing i with
  | nil => simp at hb
  | @cons x y xs ys hxy _ ih =>
    cases i with
    | zero =>
      obtain rfl := Option.some.inj hb
      exact ⟨x, rfl, hxy⟩
    | succ i => exact ih hb

/-- **Other names for the pages**, one for one, keep a sequence scoped. -/
theorem Scoped.rename (h : Scoped uses)
    (hinj : ∀ p q r, name p = some r → name q = some r → p = q)
    (hrenamed : List.Forall₂ (PageUse.Renames name) uses renamed) : Scoped renamed where
  once := by
    -- names that occur are given one for one, so that no name is given twice
    have hmap := introduced_rename hrenamed
    have hnodup : ((introduced uses).map name).Nodup := by
      refine h.once.map_on fun p hp q hq hpq => ?_
      have hmem : name p ∈ (introduced renamed).map some := by
        rw [← hmap]
        exact List.mem_map_of_mem hp
      obtain ⟨r, -, hr⟩ := List.mem_map.mp hmem
      exact hinj p q r hr.symm (hpq ▸ hr.symm)
    rw [hmap] at hnodup
    exact hnodup.of_map some
  earlier i v hv hopens := by
    obtain ⟨u, hu, huv⟩ := forall₂_getElem? hrenamed hv
    obtain ⟨j, hj, w, hw, hp⟩ := h.earlier i u hu (huv.opens ▸ hopens)
    -- back from the old names to the new ones
    obtain ⟨w', hw', hww'⟩ := forall₂_getElem? hrenamed.flip (i := j) hw
    refine ⟨j, hj, w', hw', ?_⟩
    have hmem : some v.page ∈ w'.introduces.map some := by
      rw [← hww'.introduces, ← huv.page]
      exact List.mem_map_of_mem hp
    simpa using hmem
  closed i j u' v' hu' hv' hij hcloses hpage := by
    obtain ⟨u, hu, huu'⟩ := forall₂_getElem? hrenamed hu'
    obtain ⟨v, hv, hvv'⟩ := forall₂_getElem? hrenamed hv'
    refine h.closed i j u v hu hv hij (huu'.closes ▸ hcloses) ?_
    exact hinj v.page u.page v'.page hvv'.page (hpage ▸ huu'.page)

/-! ### Logs -/

/-- **A well-scoped log.** -/
structure WellScoped (log : List Action) : Prop where
  /-- The first action opens the root page. -/
  first : ∀ a ∈ log.head?, a.kind = .openPage ∧ a.page = rootAlias
  /-- Each page is introduced exactly once. -/
  once : ∀ a ∈ log, ∀ p ∈ a.pages, (log.flatMap Action.introduces).count p = 1
  /-- An action that opens no page is on one that an earlier action introduced. -/
  earlier : ∀ (i : ℕ) (a : Action), log[i]? = some a → a.kind ≠ .openPage →
    ∃ j < i, ∃ b : Action, log[j]? = some b ∧ a.page ∈ b.introduces
  /-- No action is on a page that an earlier action closed. -/
  closed : ∀ (i j : ℕ) (a b : Action), log[i]? = some a → log[j]? = some b → i < j →
    a.kind = .closePage → b.page ≠ a.page

theorem introduced_map_use (log : List Action) :
    introduced (log.map Action.use) = log.flatMap Action.introduces := by
  rw [introduced, List.flatMap_map]
  rfl

/-- The pages of popups are introduced, as long as only popups have pages. -/
theorem Action.mem_introduces_of_popup {a : Action} {s : Signal} {p : String} (hs : s ∈ a.signals)
    (hkind : s.kind = .popup) (hp : s.popup = some p) : p ∈ a.introduces := by
  refine List.mem_append_right _ (List.mem_flatMap.mpr ⟨s, hs, ?_⟩)
  simp [Signal.introduces, hkind, hp]

/-- A log is well scoped if its actions use the pages in a scoped way, the first one names the root
page, and no other signal than a popup has a page. -/
theorem Scoped.wellScoped {log : List Action} (h : Scoped (log.map Action.use))
    (hroot : ∀ a ∈ log.head?, a.page = rootAlias)
    (hpopups : ∀ a ∈ log, ∀ s ∈ a.signals, s.popup.isSome → s.kind = .popup) : WellScoped log := by
  have huse {i : ℕ} {a : Action} (ha : log[i]? = some a) :
      (log.map Action.use)[i]? = some a.use := by
    rw [List.getElem?_map, ha]
    rfl
  have hearlier : ∀ (i : ℕ) (a : Action), log[i]? = some a → a.kind ≠ .openPage →
      ∃ j < i, ∃ b : Action, log[j]? = some b ∧ a.page ∈ b.introduces := by
    intro i a ha hkind
    obtain ⟨j, hj, v, hv, hp⟩ := h.earlier i a.use (huse ha) (by simpa [Action.use] using hkind)
    rw [List.getElem?_map, Option.map_eq_some_iff] at hv
    obtain ⟨b, hb, rfl⟩ := hv
    exact ⟨j, hj, b, hb, hp⟩
  refine ⟨fun a ha => ⟨?_, hroot a ha⟩, fun a ha p hp => ?_, hearlier,
    fun i j a b ha hb hij hkind => ?_⟩
  · -- Nothing is earlier than the first action, so it opens its page.
    by_contra hkind
    rw [List.head?_eq_getElem?] at ha
    obtain ⟨j, hj, -⟩ := hearlier 0 a ha hkind
    exact absurd hj (Nat.not_lt_zero j)
  · rw [← introduced_map_use]
    refine List.count_eq_one_of_mem h.once ?_
    rw [introduced_map_use, List.mem_flatMap]
    -- a page of an action is opened by it, or was introduced before, or is a popup of it
    rcases List.mem_cons.mp hp with rfl | hp
    · by_cases hkind : a.kind = .openPage
      · exact ⟨a, ha, List.mem_append_left _ (by simp [hkind])⟩
      · obtain ⟨i, hi⟩ := List.mem_iff_getElem?.mp ha
        obtain ⟨j, -, b, hb, hp⟩ := hearlier i a hi hkind
        exact ⟨b, List.mem_iff_getElem?.mpr ⟨j, hb⟩, hp⟩
    · obtain ⟨s, hs, hp⟩ := List.mem_filterMap.mp hp
      exact ⟨a, ha, Action.mem_introduces_of_popup hs (hpopups a ha s hs (by simp [hp])) hp⟩
  · exact h.closed i j a.use b.use (huse ha) (huse hb) hij (by simp [Action.use, hkind])

end Scribe
