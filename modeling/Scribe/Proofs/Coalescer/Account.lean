import Scribe.Coalescer
import Mathlib.Data.List.Basic

/-!
# The account of a coalescer

What a coalescer commits is accounted for by **entries**, one for each committed action. An entry
names the candidate that the action comes from, the fills that it replaced and the signals that were
put down to it, each with its number in the order of arrival.

`Scribe.Account` says when a list of entries accounts for the candidates that were fed: each of them
stands in exactly one place, the entries are in the order of arrival, and between a fill and the one
that replaced it there is no other entry.

The entries of what a coalescer has committed, of what it holds and of what waits in its backlog
form one list. A call only ever rearranges it in three ways, and an account stays one:

* a candidate arrives (`Scribe.Account.push`);
* a fill replaces the entry in front of it (`Scribe.Account.merge`);
* a signal is put down to an earlier entry, also across other entries (`Scribe.Account.attach`).
-/

namespace Scribe

/-! ### Entries -/

/-- **An entry**: what a committed action is made of. -/
inductive Entry where
  /-- An action, with the fills that it replaced, the signals that were put down to it, and the
  signal that it missed. -/
  | action (c : ActionCandidate) (number : ℕ) (replaced : List (ActionCandidate × ℕ))
      (attached : List (SignalCandidate × ℕ)) (missed : Option SignalKind)
  /-- A signal that stands for itself. -/
  | standalone (c : SignalCandidate) (number : ℕ)

namespace Entry

/-- The candidate that an entry comes from. -/
def candidate : Entry → Candidate
  | action c .. => .action c
  | standalone c _ => .signal c

/-- The number of the candidate that an entry comes from. -/
def number : Entry → ℕ
  | action _ n .. => n
  | standalone _ n => n

/-- The fills that an entry replaced. -/
def replaced : Entry → List (ActionCandidate × ℕ)
  | action _ _ replaced .. => replaced
  | standalone .. => []

/-- The signals that were put down to an entry. -/
def attached : Entry → List (SignalCandidate × ℕ)
  | action _ _ _ attached _ => attached
  | standalone .. => []

/-- The candidates that an entry accounts for, with their numbers. -/
def parts (e : Entry) : List (Candidate × ℕ) :=
  (e.candidate, e.number) ::
    (e.replaced.map (Prod.map .action id) ++ e.attached.map (Prod.map .signal id))

/-- An action with the signals that were put down to it. -/
def receiving (c : ActionCandidate) (attached : List (SignalCandidate × ℕ)) : Action :=
  { c.action with signals := c.action.signals ++ attached.map (·.1.signal) }

/-- **The committed action** of an entry. -/
def committed : Entry → Action
  | action c _ _ attached none => receiving c attached
  | action c _ _ attached (some k) =>
    { receiving c attached with incompleteSignals := c.action.incompleteSignals ++ [k] }
  | standalone c _ => c.standalone

/-- **A sound entry.** Only fills of one key replace each other, the earlier ones by the last. Only
a signal-bearing action receives signals: later ones, of its page, the first of their kind. It
misses only what it awaited and did not receive. -/
inductive Sound : Entry → Prop
  | action {c : ActionCandidate} {n : ℕ} {replaced : List (ActionCandidate × ℕ)}
      {attached : List (SignalCandidate × ℕ)} {missed : Option SignalKind}
      (fills : ∀ r ∈ replaced,
        c.isMergeable ∧ r.1.isMergeable ∧ r.1.key = c.key ∧ r.2 < n)
      (signals : ∀ s ∈ attached, c.action.kind.bearsSignals ∧ s.1.page = c.action.page ∧ n < s.2 ∧
        c.action.signal? s.1.signal.kind = none)
      (kinds : (attached.map (·.1.signal.kind)).Nodup)
      (awaited : ∀ k ∈ missed, c.awaiting = some k ∧ k ∉ attached.map (·.1.signal.kind)) :
      Sound (.action c n replaced attached missed)
  | standalone {c : SignalCandidate} {n : ℕ} : Sound (.standalone c n)

/-- **A fresh entry**, of a candidate that has only arrived. -/
inductive IsFresh : Entry → Prop
  | action (c : ActionCandidate) (n : ℕ) : IsFresh (.action c n [] [] none)
  | standalone (c : SignalCandidate) (n : ℕ) : IsFresh (.standalone c n)

theorem IsFresh.sound {e : Entry} (h : e.IsFresh) : e.Sound := by
  cases h with
  | action c n => exact .action (by simp) (by simp) (by simp) (by simp)
  | standalone c n => exact .standalone

theorem IsFresh.parts {e : Entry} (h : e.IsFresh) : e.parts = [(e.candidate, e.number)] := by
  cases h <;> rfl

theorem IsFresh.replaced {e : Entry} (h : e.IsFresh) : e.replaced = [] := by
  cases h <;> rfl

end Entry

/-! ### Accounts -/

/-- `e` goes before `f`, and before every fill that `f` replaced. -/
def Entry.Before (e f : Entry) : Prop :=
  e.number < f.number ∧ ∀ r ∈ f.replaced, e.number < r.2

/-- **The entries account for the candidates that were fed.** -/
structure Account (fed : List Candidate) (entries : List Entry) : Prop where
  /-- Each entry is sound. -/
  sound : ∀ e ∈ entries, e.Sound
  /-- Each candidate stands in exactly one place. -/
  exact_once : (entries.flatMap Entry.parts).Perm fed.zipIdx
  /-- The entries are in the order of arrival, a replaced fill counting at its replacement; nothing
  stands between the two. -/
  ordered : entries.Pairwise Entry.Before

namespace Account

variable {fed : List Candidate} {entries before between behind : List Entry}

theorem nil : Account [] [] :=
  ⟨by simp, by simp, .nil⟩

/-- A candidate of an entry was fed, under its number. -/
theorem getElem?_of_mem (h : Account fed entries) {e : Entry} (he : e ∈ entries)
    {c : Candidate} {n : ℕ} (hc : (c, n) ∈ e.parts) : fed[n]? = some c := by
  have hmem : (c, n) ∈ fed.zipIdx := by
    rw [← h.exact_once.mem_iff]
    exact List.mem_flatMap.mpr ⟨e, he, hc⟩
  exact List.mk_mem_zipIdx_iff_getElem?.mp hmem

theorem number_lt (h : Account fed entries) {e : Entry} (he : e ∈ entries) :
    e.number < fed.length :=
  (List.getElem?_eq_some_iff.mp (h.getElem?_of_mem he (List.mem_cons_self))).1

/-- **A candidate arrives.** -/
theorem push (h : Account fed entries) {e : Entry} (he : e.IsFresh) (hn : e.number = fed.length) :
    Account (fed ++ [e.candidate]) (entries ++ [e]) where
  sound f hf := by
    rcases List.mem_append.mp hf with hf | hf
    · exact h.sound f hf
    · rw [List.mem_singleton.mp hf]
      exact he.sound
  exact_once := by
    rw [List.flatMap_append, List.zipIdx_append]
    refine h.exact_once.append ?_
    simp [he.parts, hn]
  ordered := by
    refine List.pairwise_append.mpr ⟨h.ordered, List.pairwise_singleton _ _, fun f hf g hg => ?_⟩
    rw [List.mem_singleton.mp hg]
    exact ⟨hn ▸ h.number_lt hf, by simp [he.replaced]⟩

/-- An entry takes the place of one with the same candidates. -/
theorem replace {e e' : Entry} (h : Account fed (before ++ e :: behind)) (hs : e'.Sound)
    (hn : e'.number = e.number) (hr : e'.replaced = e.replaced) (hp : e'.parts.Perm e.parts) :
    Account fed (before ++ e' :: behind) where
  sound f hf := by
    rcases List.mem_append.mp hf with hf | hf
    · exact h.sound f (List.mem_append_left _ hf)
    · rcases List.mem_cons.mp hf with rfl | hf
      · exact hs
      · exact h.sound f (by simp [hf])
  exact_once := by
    -- the candidates of all other entries stay where they are
    refine List.Perm.trans ?_ h.exact_once
    simp only [List.flatMap_append, List.flatMap_cons]
    exact (hp.append_right _).append_left _
  ordered := by
    have ho := h.ordered
    simp only [List.pairwise_append, List.pairwise_cons, List.mem_cons, Entry.Before] at ho ⊢
    obtain ⟨h1, ⟨h2, h3⟩, h4⟩ := ho
    refine ⟨h1, ⟨fun f hf => ?_, h3⟩, fun f hf g hg => ?_⟩
    · rw [hn]
      exact h2 f hf
    · rcases hg with rfl | hg
      · rw [hn, hr]
        exact h4 f hf e (Or.inl rfl)
      · exact h4 f hf g (Or.inr hg)

/-- **A fill replaces** the fill in front of it. -/
theorem merge {c d : ActionCandidate} {n k : ℕ} {replaced : List (ActionCandidate × ℕ)}
    (h : Account fed (before ++ .action c n replaced [] none :: .action d k [] [] none :: behind))
    (hc : c.isMergeable) (hd : d.isMergeable) (hkey : c.key = d.key) :
    Account fed (before ++ .action d k (replaced ++ [(c, n)]) [] none :: behind) where
  sound f hf := by
    rcases List.mem_append.mp hf with hf | hf
    · exact h.sound f (List.mem_append_left _ hf)
    rcases List.mem_cons.mp hf with rfl | hf
    -- the fill that goes was fed before the one that stays, and so were those that it replaced
    · have hnk : n < k := by
        have ho := h.ordered
        simp only [List.pairwise_append, List.pairwise_cons, List.mem_cons] at ho
        exact (ho.2.1.1 _ (Or.inl rfl)).1
      obtain ⟨hfills⟩ := h.sound (.action c n replaced [] none) (by simp)
      refine .action (fun r hr => ?_) (by simp) (by simp) (by simp)
      rcases List.mem_append.mp hr with hr | hr
      · obtain ⟨-, h2, h3, h4⟩ := hfills r hr
        exact ⟨hd, h2, h3.trans hkey, Nat.lt_trans h4 hnk⟩
      · rw [List.mem_singleton.mp hr]
        exact ⟨hd, hc, hkey, hnk⟩
    · exact h.sound f (by simp [hf])
  exact_once := by
    refine List.Perm.trans ?_ h.exact_once
    refine List.perm_iff_count.mpr fun p => ?_
    simp only [List.flatMap_append, List.flatMap_cons, List.count_append, Entry.parts,
      Entry.candidate, Entry.number, Entry.replaced, Entry.attached, List.map_append, List.map_nil,
      List.map_cons, List.append_nil, List.count_cons, List.count_nil, Prod.map_apply, id_eq]
    omega
  ordered := by
    have ho := h.ordered
    simp only [List.pairwise_append, List.pairwise_cons, List.mem_cons] at ho ⊢
    obtain ⟨h1, ⟨h2, h3, h4⟩, h5⟩ := ho
    refine ⟨h1, ⟨fun f hf => h3 f hf, h4⟩, fun f hf g hg => ?_⟩
    rcases hg with rfl | hg
    -- an entry in front was in front of both fills
    · have hfc := h5 f hf _ (Or.inl rfl)
      refine ⟨(h5 f hf _ (Or.inr (Or.inl rfl))).1, fun r hr => ?_⟩
      rcases List.mem_append.mp hr with hr | hr
      · exact hfc.2 r hr
      · rw [List.mem_singleton.mp hr]
        exact hfc.1
    · exact h5 f hf g (Or.inr (Or.inr hg))

/-- **A signal is put down** to an earlier action, whatever entries are between the two. -/
theorem attach {c : ActionCandidate} {s : SignalCandidate} {n k : ℕ}
    {attached : List (SignalCandidate × ℕ)}
    (h : Account fed (before ++ .action c n [] attached none ::
      (between ++ .standalone s k :: behind)))
    (hc : c.action.kind.bearsSignals) (hpage : s.page = c.action.page)
    (hfirst : (Entry.receiving c attached).signal? s.signal.kind = none) :
    Account fed (before ++ .action c n [] (attached ++ [(s, k)]) none :: (between ++ behind)) where
  sound f hf := by
    have hnk : n < k := by
      have ho := h.ordered
      simp only [List.pairwise_append, List.pairwise_cons, List.mem_append, List.mem_cons] at ho
      exact (ho.2.1.1 _ (Or.inr (Or.inl rfl))).1
    simp only [Action.signal?, Entry.receiving, List.find?_append, Option.or_eq_none_iff,
      List.find?_eq_none, List.mem_map] at hfirst
    -- neither the action itself nor what was put down to it has a signal of this kind
    obtain ⟨hown, hnew⟩ := hfirst
    rcases List.mem_append.mp hf with hf | hf
    · exact h.sound f (List.mem_append_left _ hf)
    rcases List.mem_cons.mp hf with rfl | hf
    · obtain ⟨-, hsignals, hkinds, -⟩ := h.sound (.action c n [] attached none) (by simp)
      refine .action (by simp) (fun t ht => ?_) ?_ (by simp)
      · rcases List.mem_append.mp ht with ht | ht
        · exact hsignals t ht
        · rw [List.mem_singleton.mp ht]
          exact ⟨hc, hpage, hnk, List.find?_eq_none.mpr hown⟩
      · rw [List.map_append, List.nodup_append]
        refine ⟨hkinds, by simp, fun a ha b hb hab => ?_⟩
        obtain ⟨t, ht, rfl⟩ := List.mem_map.mp ha
        simp only [List.map_cons, List.map_nil, List.mem_singleton] at hb
        refine hnew t.1.signal ⟨t, ht, rfl⟩ ?_
        rw [hab, hb]
        exact beq_self_eq_true _
    · refine h.sound f ?_
      rcases List.mem_append.mp hf with hf | hf <;> simp [hf]
  exact_once := by
    refine List.Perm.trans ?_ h.exact_once
    refine List.perm_iff_count.mpr fun p => ?_
    simp only [List.flatMap_append, List.flatMap_cons, List.count_append, Entry.parts,
      Entry.candidate, Entry.number, Entry.replaced, Entry.attached, List.map_append, List.map_nil,
      List.map_cons, List.nil_append, List.append_nil, List.count_cons, List.count_nil,
      Prod.map_apply, id_eq]
    omega
  ordered := by
    -- without the signal on its own, what is left is a sublist: the order stays
    have hsub : (before ++ .action c n [] attached none :: (between ++ behind)).Sublist
        (before ++ .action c n [] attached none :: (between ++ .standalone s k :: behind)) := by
      refine List.Sublist.append_left (List.Sublist.cons_cons _ ?_) _
      exact List.Sublist.append_left (List.sublist_cons_self _ _) _
    have ho := h.ordered.sublist hsub
    simp only [List.pairwise_append, List.pairwise_cons, List.mem_cons] at ho ⊢
    obtain ⟨h1, ⟨h2, h3⟩, h4⟩ := ho
    refine ⟨h1, ⟨fun f hf => h2 f hf, h3⟩, fun f hf g hg => ?_⟩
    rcases hg with rfl | hg
    · exact h4 f hf (.action c n [] attached none) (Or.inl rfl)
    · exact h4 f hf g (Or.inr hg)

end Account

end Scribe
