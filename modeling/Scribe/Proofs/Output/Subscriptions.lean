import Scribe.Proofs.Output.Notify
import Mathlib.Data.List.Basic
import Mathlib.Data.List.Induction

/-!
# Subscriptions

Whoever subscribes a callback receives a function that takes the subscription back. The output keeps
no more than the callbacks in order, so what such a function takes off is the first subscription of
its callback, whichever that is, and every time it is called.

An **audience** is an output together with its subscriptions, each with its number and with a note
whether its own function has been called (`Scribe.Audience`). The callbacks that are **due** are
those of the subscriptions without such a note. The main statement is `Scribe.Audience.run_calls`:
an update that changes a text calls the callbacks that the output holds, once each and in order,
whatever they raise; and these are the callbacks that are due as long as each call of a function
spares the other subscriptions (`Scribe.Audience.SparesOthers`), and no longer. Where no callback is
subscribed twice, every call does (`Scribe.Audience.sparesOthers_of_nodup`), and so the callbacks
are those that are due (`Scribe.Audience.subscribers_run_of_nodup`).
-/

namespace Scribe

open Program

namespace Output

variable {o : Output} {actions : List Action} {aliases : AliasTable}

/-! ### Calling the subscribers -/

/-- **A call of a callback**, with the programs that it is given. -/
structure Call where
  callback : Callback
  sources : List Source
  deriving DecidableEq

/-- **What the calls of an update did.** -/
structure Called where
  /-- The output afterwards. -/
  output : Output
  /-- The calls in order. -/
  calls : List Call := []
  /-- What was raised in a call, and caught. -/
  caught : List (Callback × String) := []

/-- **Calls callbacks** one after the other, each with the same programs. A callback that is for
once takes itself off, and what a callback raises is caught. -/
def callAll (respond : Callback → List Source → Except String Unit) (sources : List Source) :
    List Callback → Called → Called
  | [], d => d
  | c :: rest, d =>
    let output := if c.once then d.output.unsubscribe c else d.output
    let caught :=
      match respond c sources with
      | .ok _ => d.caught
      | .error e => d.caught ++ [(c, e)]
    callAll respond sources rest ⟨output, d.calls ++ [⟨c, sources⟩], caught⟩

/-- **Whether new programs have a text that the output does not have** for their language. -/
def TextChanges (o : Output) (rendered : List Source) : Prop :=
  ∃ s ∈ rendered, ∃ t ∈ o.source? s.tag, t.text ≠ s.text

instance (o : Output) (rendered : List Source) : Decidable (o.TextChanges rendered) :=
  inferInstanceAs (Decidable (∃ s ∈ rendered, ∃ t ∈ o.source? s.tag, t.text ≠ s.text))

/-- **An update with its calls**, the waiters aside: the callbacks are gone through as they are at
the beginning. -/
def announce (respond : Callback → List Source → Except String Unit) (o : Output)
    (actions : List Action) (aliases : AliasTable) : Called :=
  if o.frozen then { output := o }
  else
    let rendered := renderAll o.catalog actions aliases
    let new := { o with sources := rendered }
    if o.TextChanges rendered then callAll respond rendered o.subscribers { output := new }
    else { output := new }

variable (respond : Callback → List Source → Except String Unit)

/-- What is raised keeps no callback from its call. -/
theorem callAll_eq (sources : List Source) (callbacks : List Callback) (d : Called) :
    (callAll respond sources callbacks d).output =
        { d.output with subscribers := afterCalls d.output.subscribers callbacks } ∧
      (callAll respond sources callbacks d).calls =
        d.calls ++ callbacks.map fun c => ⟨c, sources⟩ := by
  induction callbacks generalizing d with
  | nil => simp [callAll, afterCalls]
  | cons c rest ih =>
    obtain ⟨houtput, hcalls⟩ := ih ⟨if c.once then d.output.unsubscribe c else d.output,
      d.calls ++ [⟨c, sources⟩],
      match respond c sources with
      | .ok _ => d.caught
      | .error e => d.caught ++ [(c, e)]⟩
    rw [callAll]
    refine ⟨houtput.trans ?_, hcalls.trans ?_⟩
    · cases honce : c.once <;> simp [honce, afterCalls, unsubscribe]
    · simp

/-- **Whom an update calls, and with what.** -/
theorem calls_announce (hopen : o.frozen = false) :
    (o.announce respond actions aliases).calls =
      if o.TextChanges (renderAll o.catalog actions aliases) then
        o.subscribers.map fun c => ⟨c, renderAll o.catalog actions aliases⟩
      else [] := by
  rw [announce, hopen]
  simp only [Bool.false_eq_true, if_false]
  split
  · rw [(callAll_eq respond ..).2, List.nil_append]
  · rfl

theorem any_eq_decide_textChanges (rendered : List Source) :
    (rendered.any fun s => (o.source? s.tag).any (·.text != s.text)) =
      decide (o.TextChanges rendered) := by
  rw [Bool.eq_iff_iff, decide_eq_true_iff, TextChanges, List.any_eq_true]
  refine exists_congr fun s => and_congr_right fun _ => ?_
  rw [Option.any_eq_true]
  exact exists_congr fun t => and_congr_right fun _ => bne_iff_ne

theorem changed_update (hopen : o.frozen = false) :
    (o.update actions aliases).2.changed =
      decide (o.TextChanges (renderAll o.catalog actions aliases)) := by
  simp only [update, any_eq_decide_textChanges, hopen, Bool.false_eq_true, if_false]
  by_cases hchanges : o.TextChanges (renderAll o.catalog actions aliases) <;> simp [hchanges]

theorem frozen_update : (o.update actions aliases).1.frozen = o.frozen := by
  rw [update]
  split
  · rfl
  · dsimp only
    split <;> rfl

/-- **The calls are those of the update**, and so is what becomes of the output, its waiters aside.
-/
theorem announce_eq_update :
    (o.update actions aliases).2.notified =
        (o.announce respond actions aliases).calls.map (·.callback) ∧
      (o.update actions aliases).1 =
        { (o.announce respond actions aliases).output with
          waiters := (o.update actions aliases).1.waiters } := by
  simp only [update, announce, any_eq_decide_textChanges]
  by_cases hfrozen : o.frozen = true
  · rw [if_pos hfrozen, if_pos hfrozen]
    exact ⟨rfl, rfl⟩
  · by_cases hchanges : o.TextChanges (renderAll o.catalog actions aliases)
    · simp [hfrozen, hchanges, callAll_eq, Function.comp_def]
    · simp [hfrozen, hchanges]

/-- An update calls for once what is for once. -/
theorem afterCalls_self (callbacks : List Callback) :
    afterCalls callbacks callbacks = callbacks.filter (!·.once) := by
  have hfrom (kept : List Callback) (hkept : ∀ c ∈ kept, c.once = false) :
      afterCalls (kept ++ callbacks) callbacks = kept ++ callbacks.filter (!·.once) := by
    induction callbacks generalizing kept with
    | nil => rfl
    | cons c rest ih =>
      rw [afterCalls, List.foldl_cons, ← afterCalls]
      cases honce : c.once with
      | true =>
        have hnew : c ∉ kept := fun hmem => by simp [hkept c hmem] at honce
        rw [if_pos rfl, List.erase_append_right _ hnew, List.erase_cons_head, ih kept hkept,
          List.filter_cons_of_neg (by simp [honce])]
      | false =>
        have hkept' : ∀ x ∈ kept ++ [c], x.once = false :=
          List.forall_mem_append.mpr ⟨hkept, List.forall_mem_singleton.mpr honce⟩
        rw [if_neg Bool.false_ne_true, List.append_cons, ih _ hkept',
          List.filter_cons_of_pos (by simp [honce]), List.append_assoc, List.singleton_append]
  exact hfrom [] (List.forall_mem_nil _)

/-- **The subscribers after an update.** -/
theorem subscribers_update (o : Output) (actions : List Action) (aliases : AliasTable) :
    (o.update actions aliases).1.subscribers =
      if o.frozen = false ∧ o.TextChanges (renderAll o.catalog actions aliases) then
        o.subscribers.filter (!·.once)
      else o.subscribers := by
  simp only [update, any_eq_decide_textChanges]
  by_cases hfrozen : o.frozen = true
  · simp [hfrozen]
  · by_cases hchanges : o.TextChanges (renderAll o.catalog actions aliases)
    · simp [hfrozen, hchanges, afterCalls_self]
    · simp [hfrozen, hchanges]

end Output

/-! ### Audiences -/

/-- **An output with its subscriptions.** -/
structure Audience where
  output : Output
  /-- The callbacks of the subscriptions, which are numbered in order. -/
  issued : List Callback := []
  /-- The subscriptions whose own function has been called. -/
  cancelled : List ℕ := []

namespace Audience

/-- **What is asked of an output.** -/
inductive Request where
  /-- A callback is subscribed. -/
  | subscribe (c : Callback)
  /-- The function of a subscription is called. -/
  | cancel (k : ℕ)
  | update (actions : List Action) (aliases : AliasTable)

/-- **The subscriptions whose own function has not been called**, with their numbers. -/
def standing (d : Audience) : List (Callback × ℕ) :=
  d.issued.zipIdx.filter fun e => !d.cancelled.contains e.2

/-- **The callbacks that are due** at an update that changes a text. -/
def due (d : Audience) : List Callback :=
  d.standing.map (·.1)

/-- **Does what is asked.** A callback that is for once calls the function of its subscription when
it is called. -/
def perform (d : Audience) : Request → Audience
  | .subscribe c => { d with output := d.output.subscribe c, issued := d.issued ++ [c] }
  | .cancel k =>
    match d.issued[k]? with
    | none => d
    | some c => { d with output := d.output.unsubscribe c, cancelled := d.cancelled ++ [k] }
  | .update actions aliases =>
    let (output, u) := d.output.update actions aliases
    { d with
      output := output
      cancelled := d.cancelled ++
        if u.changed then (d.standing.filter (·.1.once)).map (·.2) else [] }

/-- **Does what is asked, in order.** -/
def run (d : Audience) (requests : List Request) : Audience :=
  requests.foldl perform d

/-- An output without subscriptions. -/
def ofCatalog (c : Catalog) : Audience where
  output := .ofCatalog c

/-- **A call of a function spares the other subscriptions**: if its own subscription stands, only
subscriptions of the same callback stand between the first one of this callback and itself; and if
it does not, then no subscription of this callback does. -/
def SparesOthers (d : Audience) (k : ℕ) : Prop :=
  ∀ c, d.issued[k]? = some c →
    if (c, k) ∈ d.standing then
      ∀ i < k, (c, i) ∈ d.standing → ∀ e ∈ d.standing, i < e.2 → e.2 < k → e.1 = c
    else ∀ e ∈ d.standing, e.1 ≠ c

theorem run_append (d : Audience) (before after : List Request) :
    d.run (before ++ after) = (d.run before).run after :=
  List.foldl_append

theorem catalog_run (d : Audience) (requests : List Request) :
    (d.run requests).output.catalog = d.output.catalog := by
  induction requests generalizing d with
  | nil => rfl
  | cons r rest ih =>
    refine (ih (d.perform r)).trans ?_
    cases r with
    | subscribe c => rfl
    | cancel k =>
      rw [perform]
      split <;> rfl
    | update actions aliases => exact d.output.catalog_update actions aliases

/-! ### Lists of numbered callbacks -/

theorem append_singleton_eq_cons_iff {α : Type} {a : α} {l : List α} :
    l ++ [a] = a :: l ↔ ∀ x ∈ l, x = a := by
  induction l with
  | nil => simp
  | cons x rest ih =>
    rw [List.cons_append, List.cons.injEq, List.forall_mem_cons, ← ih]
    refine and_congr_right ?_
    rintro rfl
    rfl

/-- **Taking off the first occurrence** is taking off a given one if nothing else stands between the
two. -/
theorem erase_append_cons_iff {α : Type} [DecidableEq α] {a : α} {before after : List α} :
    (before ++ a :: after).erase a = before ++ after ↔
      ∀ x ∈ before.dropWhile (· != a), x = a := by
  induction before with
  | nil => simp
  | cons y rest ih =>
    by_cases hy : y = a
    · subst hy
      have happend : rest ++ y :: after = (rest ++ [y]) ++ after := List.append_cons ..
      rw [List.cons_append, List.erase_cons_head, List.dropWhile_cons_of_neg (by simp), happend,
        List.cons_append, ← List.cons_append, List.append_cancel_right_eq,
        append_singleton_eq_cons_iff, List.forall_mem_cons]
      exact (and_iff_right rfl).symm
    · rw [List.cons_append, List.erase_cons_tail (by simpa using hy), List.cons_append,
        List.cons.injEq, List.dropWhile_cons_of_pos (by simpa using hy), ih]
      exact and_iff_right rfl

/-- What stands behind the first entry of a callback, by the numbers of the entries. -/
theorem forall_mem_dropWhile_iff {entries : List (Callback × ℕ)} {c : Callback}
    (hsorted : entries.Pairwise (·.2 < ·.2)) :
    (∀ x ∈ (entries.map (·.1)).dropWhile (· != c), x = c) ↔
      ∀ i, (c, i) ∈ entries → ∀ e ∈ entries, i < e.2 → e.1 = c := by
  induction entries with
  | nil => simp
  | cons first rest ih =>
    obtain ⟨hfirst, hrest⟩ := List.pairwise_cons.mp hsorted
    obtain ⟨x, j⟩ := first
    by_cases hx : x = c
    · subst hx
      rw [List.map_cons, List.dropWhile_cons_of_neg (by simp), List.forall_mem_cons,
        List.forall_mem_map, and_iff_right rfl]
      constructor
      · intro h i _ e he _
        rcases List.mem_cons.mp he with rfl | he
        · rfl
        · exact h e he
      · intro h e he
        exact h j List.mem_cons_self e (List.mem_cons_of_mem _ he) (hfirst e he)
    · rw [List.map_cons, List.dropWhile_cons_of_pos (by simpa using hx), ih hrest]
      constructor
      · intro h i hi e he hlt
        have hmem : (c, i) ∈ rest := by
          rcases List.mem_cons.mp hi with heq | hmem
          · exact absurd (congrArg Prod.fst heq).symm hx
          · exact hmem
        rcases List.mem_cons.mp he with rfl | he
        · exact absurd (hfirst _ hmem) (Nat.lt_asymm hlt)
        · exact h i hmem e he hlt
      · intro h i hi e he hlt
        exact h i (List.mem_cons_of_mem _ hi) e (List.mem_cons_of_mem _ he) hlt

/-- **Taking off the first entry of a callback** takes off a given one of its entries if only
entries of the same callback stand between the two. -/
theorem erase_map_fst_iff {entries : List (Callback × ℕ)} {c : Callback} {k : ℕ}
    (hsorted : entries.Pairwise (·.2 < ·.2)) (hk : ∀ e ∈ entries, e.2 = k → e.1 = c) :
    (entries.map (·.1)).erase c = (entries.filter (·.2 ≠ k)).map (·.1) ↔
      if (c, k) ∈ entries then
        ∀ i < k, (c, i) ∈ entries → ∀ e ∈ entries, i < e.2 → e.2 < k → e.1 = c
      else ∀ e ∈ entries, e.1 ≠ c := by
  split
  · next hmem =>
    obtain ⟨before, after, rfl⟩ := List.append_of_mem hmem
    obtain ⟨hbefore, hafter, hcross⟩ := List.pairwise_append.mp hsorted
    have hless : ∀ e ∈ before, e.2 < k := fun e he => hcross e he (c, k) List.mem_cons_self
    have hmore : ∀ e ∈ after, k < e.2 := (List.pairwise_cons.mp hafter).1
    have hkeep : (before ++ (c, k) :: after).filter (·.2 ≠ k) = before ++ after := by
      rw [List.filter_append, List.filter_cons_of_neg (by simp),
        List.filter_eq_self.mpr fun e he => decide_eq_true (Nat.ne_of_lt (hless e he)),
        List.filter_eq_self.mpr fun e he => decide_eq_true (Nat.ne_of_gt (hmore e he))]
    rw [hkeep, List.map_append, List.map_append, List.map_cons, erase_append_cons_iff,
      forall_mem_dropWhile_iff hbefore]
    -- the entries with a smaller number are those in front
    have hfront : ∀ e ∈ before ++ (c, k) :: after, e.2 < k → e ∈ before := by
      intro e he hlt
      rcases List.mem_append.mp he with he | he
      · exact he
      · rcases List.mem_cons.mp he with rfl | he
        · exact absurd hlt (Nat.lt_irrefl k)
        · exact absurd hlt (Nat.lt_asymm (hmore e he))
    constructor
    · intro h i hi hmem e he hlt hk'
      exact h i (hfront _ hmem hi) e (hfront e he hk') hlt
    · intro h i hi e he hlt
      exact h i (hless _ hi) (List.mem_append_left _ hi) e (List.mem_append_left _ he) hlt
        (hless e he)
  · next hnot =>
    have hkeep : entries.filter (·.2 ≠ k) = entries := by
      refine List.filter_eq_self.mpr fun e he => decide_eq_true fun heq => hnot ?_
      rw [← hk e he heq, ← heq]
      exact he
    rw [hkeep, List.erase_eq_self_iff, List.mem_map]
    exact ⟨fun h e he heq => h ⟨e, he, heq⟩, fun h ⟨e, he, heq⟩ => h e he heq⟩

/-! ### Subscriptions one by one -/

variable {d : Audience}

theorem mem_standing {c : Callback} {k : ℕ} :
    (c, k) ∈ d.standing ↔ d.issued[k]? = some c ∧ k ∉ d.cancelled := by
  simp [standing, List.mem_zipIdx_iff_getElem?]

theorem pairwise_standing : d.standing.Pairwise (·.2 < ·.2) := by
  refine List.Pairwise.filter _ ?_
  rw [← List.pairwise_map (f := Prod.snd) (R := (· < ·)), List.zipIdx_map_snd]
  exact List.pairwise_lt_range'

/-- **The notes are about subscriptions that were made**, and the output is not frozen. -/
structure IsInOrder (d : Audience) : Prop where
  made : ∀ k ∈ d.cancelled, k < d.issued.length
  not_frozen : d.output.frozen = false

theorem isInOrder_ofCatalog (c : Catalog) : (ofCatalog c).IsInOrder :=
  ⟨(fun _ hk => nomatch hk), rfl⟩

theorem standing_subscribe (h : d.IsInOrder) (c : Callback) :
    (d.perform (.subscribe c)).standing = d.standing ++ [(c, d.issued.length)] := by
  have hnew : d.issued.length ∉ d.cancelled := fun hmem => Nat.lt_irrefl _ (h.made _ hmem)
  simp [standing, perform, List.zipIdx_append, hnew]

/-- More notes. -/
theorem standing_append (output : Output) (ks : List ℕ) :
    standing ⟨output, d.issued, d.cancelled ++ ks⟩ =
      d.standing.filter fun e => !ks.contains e.2 := by
  simp only [standing, List.filter_filter]
  refine List.filter_congr fun e _ => ?_
  rw [List.contains_append, Bool.not_or, Bool.and_comm]

theorem standing_cancel {c : Callback} {k : ℕ} (hk : d.issued[k]? = some c) :
    (d.perform (.cancel k)).standing = d.standing.filter (·.2 ≠ k) := by
  rw [perform, hk, standing_append]
  exact List.filter_congr fun e _ => by simp

theorem standing_update (h : d.IsInOrder) (actions : List Action) (aliases : AliasTable) :
    (d.perform (.update actions aliases)).standing =
      if d.output.TextChanges (renderAll d.output.catalog actions aliases) then
        d.standing.filter (!·.1.once)
      else d.standing := by
  simp only [perform, Output.changed_update h.not_frozen, decide_eq_true_eq]
  split
  · rw [standing_append]
    refine List.filter_congr fun e he => congrArg (!·) ?_
    -- the number of a subscription tells its callback
    rw [Bool.eq_iff_iff, List.contains_iff_mem, List.mem_map]
    constructor
    · rintro ⟨e', he', hsame⟩
      obtain ⟨hmem, honce⟩ := List.mem_filter.mp he'
      have hcallback : some e'.1 = some e.1 := by
        rw [← (mem_standing.mp hmem).1, ← (mem_standing.mp he).1, hsame]
      rwa [Option.some.inj hcallback] at honce
    · exact fun honce => ⟨e, List.mem_filter.mpr ⟨he, honce⟩, rfl⟩
  · rw [List.append_nil]
    rfl

/-- Everything that is asked leaves the notes in order. -/
theorem IsInOrder.perform (h : d.IsInOrder) (r : Request) : (d.perform r).IsInOrder := by
  cases r with
  | subscribe c =>
    refine ⟨fun k hk => ?_, h.not_frozen⟩
    exact Nat.lt_of_lt_of_le (h.made k hk) (by simp [Audience.perform])
  | cancel k =>
    rw [Audience.perform]
    split
    · exact h
    · next c hc =>
      refine ⟨fun k' hk' => ?_, h.not_frozen⟩
      rcases List.mem_append.mp hk' with hk' | hk'
      · exact h.made k' hk'
      · rw [List.mem_singleton.mp hk']
        exact (List.getElem?_eq_some_iff.mp hc).1
  | update actions aliases =>
    refine ⟨fun k hk => ?_, Output.frozen_update.trans h.not_frozen⟩
    rcases List.mem_append.mp hk with hk | hk
    · exact h.made k hk
    · split at hk
      · obtain ⟨e, he, rfl⟩ := List.mem_map.mp hk
        have hissued := (mem_standing.mp (List.mem_of_mem_filter he)).1
        exact (List.getElem?_eq_some_iff.mp hissued).1
      · cases hk

theorem IsInOrder.run (h : d.IsInOrder) (requests : List Request) : (d.run requests).IsInOrder := by
  induction requests generalizing d with
  | nil => exact h
  | cons r rest ih => exact ih (h.perform r)

/-- **What is asked keeps the callbacks of the output to those that are due**, where a call of a
function spares the other subscriptions, and only there. -/
theorem subscribers_perform_iff (h : d.IsInOrder) (hdue : d.output.subscribers = d.due)
    (r : Request) :
    (d.perform r).output.subscribers = (d.perform r).due ↔
      ∀ k, r = .cancel k → d.SparesOthers k := by
  cases r with
  | subscribe c =>
    refine iff_of_true ?_ fun k hk => by cases hk
    rw [due, standing_subscribe h, List.map_append, ← due, ← hdue]
    rfl
  | cancel k =>
    have hspares : (∀ k', Request.cancel k = .cancel k' → d.SparesOthers k') ↔ d.SparesOthers k :=
      ⟨fun hall => hall k rfl, fun hk k' heq => Request.cancel.inj heq ▸ hk⟩
    rw [hspares]
    cases hk : d.issued[k]? with
    | none =>
      refine iff_of_true ?_ fun c hc => ?_
      · simpa [perform, hk] using hdue
      · simp [hk] at hc
    | some c =>
      have hnumber (e : Callback × ℕ) (he : e ∈ d.standing) (heq : e.2 = k) : e.1 = c := by
        have hissued := (mem_standing.mp he).1
        rw [heq, hk] at hissued
        exact (Option.some.inj hissued).symm
      have htaken : (d.perform (.cancel k)).output.subscribers = d.due.erase c := by
        rw [← hdue]
        simp [perform, hk, Output.unsubscribe]
      rw [htaken, due, due, standing_cancel hk, erase_map_fst_iff pairwise_standing hnumber]
      simp [SparesOthers, hk]
  | update actions aliases =>
    refine iff_of_true ?_ fun k hk => by cases hk
    have hleft : (d.perform (.update actions aliases)).output.subscribers =
        if d.output.TextChanges (renderAll d.output.catalog actions aliases) then
          d.due.filter (!·.once)
        else d.due := by
      have hupdate := d.output.subscribers_update actions aliases
      simp only [h.not_frozen, hdue, true_and] at hupdate
      exact hupdate
    rw [hleft, due, due, standing_update h]
    split
    · exact List.filter_map ..
    · rfl

/-! ### Runs -/

/-- **The subscribers are the callbacks that are due** at every time as long as each call of a
function spares the other subscriptions, and no longer. -/
theorem subscribers_run_iff (h : d.IsInOrder) (hdue : d.output.subscribers = d.due)
    (requests : List Request) :
    (∀ done, done <+: requests → (d.run done).output.subscribers = (d.run done).due) ↔
      ∀ done k, done ++ [.cancel k] <+: requests → (d.run done).SparesOthers k := by
  induction requests using List.reverseRecOn with
  | nil =>
    refine iff_of_true (fun done hdone => ?_) fun done k hdone => ?_
    · rw [List.prefix_nil.mp hdone]
      exact hdue
    · exact absurd (List.prefix_nil.mp hdone) (by simp)
  | append_singleton rest r ih =>
    have hlast : d.run (rest ++ [r]) = (d.run rest).perform r := List.foldl_concat ..
    constructor
    · intro hall done k hdone
      rcases List.prefix_concat_iff.mp hdone with heq | hdone
      · obtain ⟨rfl, hr⟩ := List.append_inj' heq rfl
        obtain rfl := List.singleton_inj.mp hr
        have hnow := hall done (List.prefix_append ..)
        have hnext := hall _ (List.prefix_refl _)
        rw [hlast] at hnext
        exact (subscribers_perform_iff (h.run done) hnow _).mp hnext k rfl
      · exact ih.mp (fun done hdone => hall done (hdone.trans (List.prefix_append ..))) done k hdone
    · intro hall done hdone
      have hbefore := ih.mpr fun done k hdone => hall done k (hdone.trans (List.prefix_append ..))
      rcases List.prefix_concat_iff.mp hdone with rfl | hdone
      · rw [hlast]
        refine (subscribers_perform_iff (h.run rest) (hbefore rest (List.prefix_refl _)) r).mpr ?_
        rintro k rfl
        exact hall rest k (List.prefix_refl _)
      · exact hbefore done hdone

/-- What was subscribed stays subscribed with its number. -/
theorem issued_prefix_run (requests : List Request) : d.issued <+: (d.run requests).issued := by
  induction requests generalizing d with
  | nil => exact List.prefix_refl _
  | cons r rest ih =>
    refine List.IsPrefix.trans ?_ ih
    cases r with
    | subscribe c => exact List.prefix_append ..
    | cancel k =>
      rw [perform]
      split <;> exact List.prefix_refl _
    | update actions aliases => exact List.prefix_refl _

/-- Where no callback is subscribed twice, **every call spares the others**. -/
theorem sparesOthers_of_nodup (hnodup : d.issued.Nodup) (k : ℕ) : d.SparesOthers k := by
  intro c hk
  have hsame {i : ℕ} (hi : (c, i) ∈ d.standing) : i = k := by
    have hissued := (mem_standing.mp hi).1
    exact (List.getElem?_inj (List.getElem?_eq_some_iff.mp hissued).1 hnodup).mp
      (hissued.trans hk.symm)
  split
  · intro i hlt hi
    exact absurd (hsame hi) (Nat.ne_of_lt hlt)
  · next hnot =>
    rintro ⟨_, i⟩ he rfl
    exact hnot (hsame he ▸ he)

/-- Where no callback is subscribed twice, **the subscribers are the callbacks that are due**. -/
theorem subscribers_run_of_nodup (c : Catalog) (requests : List Request)
    (hnodup : ((ofCatalog c).run requests).issued.Nodup) :
    ((ofCatalog c).run requests).output.subscribers = ((ofCatalog c).run requests).due := by
  refine (subscribers_run_iff (isInOrder_ofCatalog c) rfl requests).mpr ?_ _ (List.prefix_refl _)
  rintro done k ⟨rest, rfl⟩
  refine sparesOthers_of_nodup (hnodup.sublist ?_) k
  rw [List.append_assoc, run_append]
  exact (issued_prefix_run _).sublist

/-- **Whom an update calls.** After any subscriptions, calls of their functions and updates, an
update that changes a text calls the callbacks of the output, once each and in order, with the new
programs and whatever they raise; and an update that changes no text calls none. At every time up to
then the callbacks of the output have been those that are due, if and only if each call of a
function has spared the other subscriptions. -/
theorem run_calls (respond : Callback → List Source → Except String Unit) (c : Catalog)
    (requests : List Request) :
    (∀ actions aliases,
      let o := ((ofCatalog c).run requests).output
      let sources := renderAll c actions aliases
      (o.update actions aliases).2.notified =
          (o.announce respond actions aliases).calls.map (·.callback) ∧
        (o.announce respond actions aliases).calls =
          if o.TextChanges sources then o.subscribers.map (⟨·, sources⟩) else []) ∧
      ((∀ done, done <+: requests →
          ((ofCatalog c).run done).output.subscribers = ((ofCatalog c).run done).due) ↔
        ∀ done k, done ++ [.cancel k] <+: requests → ((ofCatalog c).run done).SparesOthers k) := by
  refine ⟨fun actions aliases => ⟨(Output.announce_eq_update respond).1, ?_⟩,
    subscribers_run_iff (isInOrder_ofCatalog c) rfl requests⟩
  have hopen := ((isInOrder_ofCatalog c).run requests).not_frozen
  rw [Output.calls_announce respond hopen, catalog_run, ofCatalog, Output.ofCatalog]

/-- Two subscriptions of one callback, of which the second one is taken back twice. -/
def takenBackTwice : Audience :=
  (ofCatalog .standard).run
    [.subscribe ⟨"a", false⟩, .subscribe ⟨"a", false⟩, .cancel 1, .cancel 1]

/-- The first subscription is taken off along with the second. -/
theorem takenBackTwice_calls :
    ∃ actions aliases,
      takenBackTwice.output.TextChanges
          (renderAll takenBackTwice.output.catalog actions aliases) ∧
        takenBackTwice.due = [⟨"a", false⟩] ∧
        (takenBackTwice.output.announce (fun _ _ => .ok ()) actions aliases).calls = [] := by
  refine ⟨[{ kind := .openPage, page := "page" }], {}, ?_, rfl, ?_⟩
  · decide +kernel
  · decide +kernel

end Audience

end Scribe
