import Scribe.Proofs.Coalescer.Account
import Scribe.Proofs.Observer.Stream

/-!
# The scope of what is committed

The stream of candidates is scoped, and so are the actions that an account makes of it, although
they are not in the order of the stream: a signal that is put down to an action goes before all
candidates that came between the two. This does no harm, as it only brings forward the introduction
of a popup; and a fill that is replaced, which goes away, introduces nothing.

The statement is `Scribe.Account.inScope`. What is held or waits comes behind what is committed, so
it also covers the beginning of an account.
-/

namespace Scribe

namespace Entry

/-- All that an entry is made of has the shape of what the observer yields. -/
def IsObservable (e : Entry) : Prop :=
  ∀ p ∈ e.parts, Observable p.1

variable {e : Entry}

theorem IsObservable.candidate (h : e.IsObservable) : Observable e.candidate :=
  h _ List.mem_cons_self

theorem IsObservable.attached (h : e.IsObservable) {s : SignalCandidate × ℕ}
    (hs : s ∈ e.attached) : Observable (.signal s.1) := by
  refine h (.signal s.1, s.2) (List.mem_cons_of_mem _ (List.mem_append_right _ ?_))
  exact List.mem_map.mpr ⟨s, hs, rfl⟩

end Entry

/-- The action that stands for a signal uses the pages as the signal does. -/
theorem Observable.standalone_use {s : SignalCandidate} (h : Observable (.signal s)) :
    s.standalone.use = (Candidate.signal s).use := by
  cases h <;> rfl

/-- A fill introduces no page. -/
theorem Observable.introduces_of_isMergeable {c : ActionCandidate} (h : Observable (.action c))
    (hc : c.isMergeable) : c.action.introduces = [] := by
  cases h with
  | opened page url => cases hc
  | closed page => cases hc
  | gesture hgesture => exact congrArg PageUse.introduces hgesture.use

namespace Entry

variable {e : Entry}

/-- What is put down to an action changes only the pages that it introduces. -/
theorem use_committed (h : e.IsObservable) :
    e.committed.use = ⟨e.candidate.use.page,
      e.candidate.use.introduces ++ e.attached.flatMap (·.1.signal.introduces),
      e.candidate.use.opens, e.candidate.use.closes⟩ := by
  cases e with
  | action c n replaced attached missed =>
    have hintroduces : (receiving c attached).introduces =
        c.action.introduces ++ attached.flatMap (·.1.signal.introduces) := by
      have hsignals : (receiving c attached).signals =
          c.action.signals ++ attached.map (·.1.signal) := rfl
      rw [Action.introduces, Action.introduces, hsignals, List.flatMap_append, List.flatMap_map,
        List.append_assoc]
      rfl
    cases missed with
    | none => simp only [committed, Action.use, hintroduces]; rfl
    | some k =>
      change (⟨c.action.page, (receiving c attached).introduces, _, _⟩ : PageUse) = _
      rw [hintroduces]
      rfl
  | standalone c n =>
    rw [committed, h.candidate.standalone_use]
    simp [Entry.candidate, Entry.attached, Candidate.use]

/-- An entry introduces what its parts introduce. -/
theorem introduces_committed (h : e.IsObservable) (hs : e.Sound) :
    e.committed.use.introduces = e.parts.flatMap (·.1.use.introduces) := by
  have hreplaced : e.replaced.flatMap (·.1.action.introduces) = [] := by
    refine List.flatMap_eq_nil_iff.mpr fun r hr => ?_
    cases hs with
    | standalone => cases hr
    | action fills =>
      obtain ⟨-, hmergeable, -⟩ := fills r hr
      refine (h (.action r.1, r.2) ?_).introduces_of_isMergeable hmergeable
      exact List.mem_cons_of_mem _ (List.mem_append_left _ (List.mem_map.mpr ⟨r, hr, rfl⟩))
  have hreplaced' : (e.replaced.map (Prod.map Candidate.action id)).flatMap (·.1.use.introduces) =
      [] := by
    rw [List.flatMap_map]
    exact hreplaced
  rw [use_committed h, parts, List.flatMap_cons, List.flatMap_append, hreplaced', List.flatMap_map]
  rfl

end Entry

namespace Account

variable {fed : List Candidate} {entries more : List Entry}

theorem isObservable (h : Account fed entries) (hfed : ∀ c ∈ fed, Observable c) {e : Entry}
    (he : e ∈ entries) : e.IsObservable := by
  rintro ⟨c, n⟩ hp
  exact hfed c (List.mem_iff_getElem?.mpr ⟨n, h.getElem?_of_mem he hp⟩)

/-- The entries are in the order of their numbers. -/
theorem number_lt_number_iff (h : Account fed entries) {i j : ℕ} {e f : Entry}
    (he : entries[i]? = some e) (hf : entries[j]? = some f) : e.number < f.number ↔ i < j := by
  have hmono : ∀ {i j : ℕ} {e f : Entry}, entries[i]? = some e → entries[j]? = some f → i < j →
      e.number < f.number := by
    intro i j e f he hf hij
    obtain ⟨hi, rfl⟩ := List.getElem?_eq_some_iff.mp he
    obtain ⟨hj, rfl⟩ := List.getElem?_eq_some_iff.mp hf
    exact (List.pairwise_iff_getElem.mp h.ordered i j hi hj hij).1
  refine ⟨fun hlt => ?_, hmono he hf⟩
  rcases Nat.lt_trichotomy i j with hij | rfl | hji
  · exact hij
  · obtain rfl := Option.some.inj (he.symm.trans hf)
    exact absurd hlt (Nat.lt_irrefl _)
  · exact absurd hlt (Nat.lt_asymm (hmono hf he hji))

/-- Each candidate that introduces a page is part of an entry that is not later than it. -/
theorem exists_entry_of_introduces (h : Account fed entries) (hfed : ∀ c ∈ fed, Observable c)
    {d : Candidate} {n : ℕ} {p : String} (hd : fed[n]? = some d) (hp : p ∈ d.use.introduces) :
    ∃ (k : ℕ) (f : Entry), entries[k]? = some f ∧ p ∈ f.committed.use.introduces ∧
      f.number ≤ n := by
  have hmem : (d, n) ∈ entries.flatMap Entry.parts := by
    rw [h.exact_once.mem_iff]
    exact List.mk_mem_zipIdx_iff_getElem?.mpr hd
  obtain ⟨f, hf, hpart⟩ := List.mem_flatMap.mp hmem
  obtain ⟨k, hk⟩ := List.mem_iff_getElem?.mp hf
  have hobs := h.isObservable hfed hf
  have hsound := h.sound f hf
  refine ⟨k, f, hk, ?_, ?_⟩
  · rw [Entry.introduces_committed hobs hsound]
    exact List.mem_flatMap.mpr ⟨(d, n), hpart, hp⟩
  -- the candidate is that of the entry, or a fill that it replaced, or a signal put down to it
  · have hd' : Observable d := hobs (d, n) hpart
    rw [Entry.parts, List.mem_cons, List.mem_append] at hpart
    rcases hpart with hpart | hpart | hpart
    · obtain ⟨-, rfl⟩ := Prod.mk.inj hpart
      exact Nat.le_refl _
    · -- A fill that was replaced introduces nothing.
      obtain ⟨r, hr, hreq⟩ := List.mem_map.mp hpart
      obtain ⟨rfl, -⟩ := Prod.mk.inj hreq
      cases hsound with
      | standalone => cases hr
      | action fills =>
        obtain ⟨-, hmergeable, -⟩ := fills r hr
        rw [Candidate.use, Action.use, hd'.introduces_of_isMergeable hmergeable] at hp
        cases hp
    · obtain ⟨s, hs, hseq⟩ := List.mem_map.mp hpart
      obtain ⟨rfl, rfl⟩ := Prod.mk.inj hseq
      cases hsound with
      | standalone => cases hs
      | action fills signals =>
        obtain ⟨-, -, hlt, -⟩ := signals s hs
        exact Nat.le_of_lt hlt

/-- **The committed actions of an account are in scope** if the candidates are. -/
theorem inScope (h : Account fed entries) (hfed : ∀ c ∈ fed, Observable c)
    (hscope : Scoped (fed.map Candidate.use)) :
    Scoped (entries.map fun e => e.committed.use) where
  once := by
    -- the entries introduce what the candidates do, in another order
    have hparts : introduced (entries.map fun e => e.committed.use) =
        (entries.flatMap Entry.parts).flatMap (·.1.use.introduces) := by
      rw [introduced, List.flatMap_map, List.flatMap_assoc]
      refine List.flatMap_congr fun e he => ?_
      exact Entry.introduces_committed (h.isObservable hfed he) (h.sound e he)
    have hstream : fed.zipIdx.flatMap (·.1.use.introduces) =
        introduced (fed.map Candidate.use) := by
      rw [introduced, List.flatMap_map]
      conv_rhs => rw [← List.zipIdx_map_fst 0 fed]
      rw [List.flatMap_map]
    rw [hparts, (h.exact_once.flatMap_right _).nodup_iff, hstream]
    exact hscope.once
  earlier i u hu hopens := by
    rw [List.getElem?_map, Option.map_eq_some_iff] at hu
    obtain ⟨e, he, rfl⟩ := hu
    have hmem : e ∈ entries := List.mem_iff_getElem?.mpr ⟨i, he⟩
    rw [Entry.use_committed (h.isObservable hfed hmem)] at hopens ⊢
    have hfed_e : (fed.map Candidate.use)[e.number]? = some e.candidate.use := by
      rw [List.getElem?_map, h.getElem?_of_mem hmem List.mem_cons_self]
      rfl
    -- the candidate that introduces the page was fed earlier; its entry is no later than that
    obtain ⟨n, hn, v, hv, hp⟩ := hscope.earlier _ _ hfed_e hopens
    rw [List.getElem?_map, Option.map_eq_some_iff] at hv
    obtain ⟨d, hd, rfl⟩ := hv
    obtain ⟨k, f, hf, hpf, hfn⟩ := h.exists_entry_of_introduces hfed hd hp
    refine ⟨k, (h.number_lt_number_iff hf he).mp (Nat.lt_of_le_of_lt hfn hn), f.committed.use, ?_,
      hpf⟩
    rw [List.getElem?_map, hf]
    rfl
  closed i j u v hu hv hij hcloses := by
    rw [List.getElem?_map, Option.map_eq_some_iff] at hu hv
    obtain ⟨e, he, rfl⟩ := hu
    obtain ⟨f, hf, rfl⟩ := hv
    have hmem_e : e ∈ entries := List.mem_iff_getElem?.mpr ⟨i, he⟩
    have hmem_f : f ∈ entries := List.mem_iff_getElem?.mpr ⟨j, hf⟩
    rw [Entry.use_committed (h.isObservable hfed hmem_e)] at hcloses ⊢
    rw [Entry.use_committed (h.isObservable hfed hmem_f)]
    refine hscope.closed e.number f.number e.candidate.use f.candidate.use ?_ ?_
      ((h.number_lt_number_iff he hf).mpr hij) hcloses
    · rw [List.getElem?_map, h.getElem?_of_mem hmem_e List.mem_cons_self]
      rfl
    · rw [List.getElem?_map, h.getElem?_of_mem hmem_f List.mem_cons_self]
      rfl

end Account

end Scribe
