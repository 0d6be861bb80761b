import Scribe.Output
import Mathlib.Data.List.Nodup

/-!
# Telling subscribers and waiters

An update that changes a program goes through the callbacks and then through the waiters, one after
the other, and takes off those that are done with while it goes (`Scribe.Output.notify`). What a
callback raises is caught, so it can be seen in a log but nowhere else; this is
`Scribe.Output.publish_eq_update`.

An output is **watchful** if no waiter is registered whose text is there already
(`Scribe.Output.IsWatchful`). Everything that can be done with an output keeps it watchful, also an
update that tells nobody because no text has changed. Of a watchful output it can be said without
cases whom an update answers (`Scribe.Output.IsWatchful.lookup_answered`) and who goes on waiting
(`Scribe.Output.IsWatchful.mem_waiters_update`).
-/

namespace Scribe

open Program

namespace Output

/-! ### One after the other -/

/-- **Calls a callback**, with the list of the callbacks that raised something. A callback that is
for once takes itself off first. -/
def callOne (raises : Callback → Bool) (p : Output × List Callback) (c : Callback) :
    Output × List Callback :=
  (if c.once then p.1.unsubscribe c else p.1, if raises c then p.2 ++ [c] else p.2)

/-- **Answers a waiter** if its text is there, and takes it off. -/
def answerOne (sources : List Source) (p : Output × List (ℕ × Source)) (w : Waiter) :
    Output × List (ℕ × Source) :=
  match answer? sources w with
  | some s => (p.1.giveUp w.ticket, p.2 ++ [(w.ticket, s)])
  | none => p

/-- **What a notification did.** -/
structure Notified where
  /-- The callbacks that raised something. -/
  raised : List Callback
  /-- The waiters that were answered, each with the program that holds its text. -/
  answered : List (ℕ × Source)

/-- **Tells the subscribers, then the waiters.** Both lists are gone through as they are at the
beginning, while entries are taken off. -/
def notify (raises : Callback → Bool) (o : Output) : Output × Notified :=
  let (told, raised) := o.subscribers.foldl (callOne raises) (o, [])
  let (o', answered) := told.waiters.foldl (answerOne o.sources) (told, [])
  (o', ⟨raised, answered⟩)

/-- **An update in steps**, with what `raises` says of the callbacks. -/
def publish (raises : Callback → Bool) (o : Output) (actions : List Action) (aliases : AliasTable) :
    Output × Update × List Callback :=
  if o.frozen then (o, {}, [])
  else
    let rendered := renderAll o.catalog actions aliases
    let changed := rendered.any fun s => (o.source? s.tag).any (·.text != s.text)
    let o := { o with sources := rendered }
    if !changed then (o, {}, [])
    else
      let (o', n) := o.notify raises
      (o', ⟨true, o.subscribers, n.answered⟩, n.raised)

theorem foldl_callOne (raises : Callback → Bool) (o : Output) (called raised : List Callback) :
    called.foldl (callOne raises) (o, raised) =
      ({ o with subscribers := afterCalls o.subscribers called },
        raised ++ called.filter raises) := by
  induction called generalizing o raised with
  | nil => simp [afterCalls]
  | cons c rest ih =>
    rw [List.foldl_cons, callOne, ih]
    by_cases honce : c.once = true <;> by_cases hraises : raises c = true <;>
      simp [honce, hraises, afterCalls, unsubscribe]

/-- Only the waiters that are gone through are taken off, and of those the ones that are answered.
-/
theorem foldl_answerOne (sources : List Source) (o : Output) (waiters : List Waiter)
    (answered : List (ℕ × Source)) :
    waiters.foldl (answerOne sources) (o, answered) =
      ({ o with waiters := o.waiters.filter fun x =>
          !waiters.any fun w => x.ticket == w.ticket && (answer? sources w).isSome },
        answered ++ waiters.filterMap fun w => (answer? sources w).map fun s => (w.ticket, s)) := by
  induction waiters generalizing o answered with
  | nil => simp
  | cons w rest ih =>
    rw [List.foldl_cons, answerOne]
    cases hw : answer? sources w with
    | none => simp [ih, hw]
    | some s => simp [ih, hw, giveUp, List.filter_filter, Bool.and_comm, bne]

/-- **What is raised by callbacks changes nothing**: an update in steps is the update, if the
waiters can be told apart. -/
theorem publish_eq_update {o : Output} (htickets : (o.waiters.map (·.ticket)).Nodup)
    (raises : Callback → Bool) (actions : List Action) (aliases : AliasTable) :
    ((o.publish raises actions aliases).1, (o.publish raises actions aliases).2.1) =
      o.update actions aliases := by
  have hleft (sources : List Source) : (o.waiters.filter fun x =>
      !o.waiters.any fun w => x.ticket == w.ticket && (answer? sources w).isSome) =
        o.waiters.filter fun w => (answer? sources w).isNone := by
    refine List.filter_congr fun x hx => ?_
    have hsame (w : Waiter) (hw : w ∈ o.waiters) (h : x.ticket = w.ticket) : w = x :=
      List.inj_on_of_nodup_map htickets hw hx h.symm
    rw [Bool.eq_iff_iff]
    simp only [Bool.not_eq_true', List.any_eq_false, Bool.and_eq_true, beq_iff_eq, not_and,
      Option.isNone_iff_eq_none, Option.not_isSome_iff_eq_none]
    exact ⟨fun h => h x hx rfl, fun h w hw hticket => hsame w hw hticket ▸ h⟩
  rw [publish, update]
  split
  · rfl
  · dsimp only
    split
    · rfl
    · simp [notify, foldl_callOne, foldl_answerOne, hleft]

/-! ### Watchful outputs -/

/-- What a list gives to a key is found under the key. -/
theorem lookup_filterMap {α β : Type} (key : α → ℕ) (f : α → Option β) {l : List α}
    (h : (l.map key).Nodup) {x : α} (hx : x ∈ l) :
    (l.filterMap fun y => (f y).map fun b => (key y, b)).lookup (key x) = f x := by
  induction l with
  | nil => cases hx
  | cons y rest ih =>
    rw [List.map_cons, List.nodup_cons] at h
    rcases List.mem_cons.mp hx with rfl | hx
    · cases hf : f x with
      | some b => simp [hf]
      | none =>
        rw [List.filterMap_cons_none (by simp [hf]), List.lookup_eq_none_iff]
        intro p hp
        obtain ⟨z, hz, hp⟩ := List.mem_filterMap.mp hp
        obtain ⟨b, -, rfl⟩ := Option.map_eq_some_iff.mp hp
        simpa using fun heq : key x = key z => h.1 (heq ▸ List.mem_map_of_mem hz)
    · have hne : (key x == key y) = false :=
        beq_eq_false_iff_ne.mpr fun heq => h.1 (heq ▸ List.mem_map_of_mem hx)
      cases hf : f y with
      | some b => simp [hf, List.lookup_cons, hne, ih h.2 hx]
      | none => simp [hf, ih h.2 hx]

theorem answer?_eq_none {sources : List Source} {w : Waiter} :
    answer? sources w = none ↔
      ∀ s, sources.find? (·.tag == w.tag) = some s → Text.contains s.text w.substring = false := by
  rw [answer?, Option.filter_eq_none_iff]
  simp

theorem answer?_eq_some {sources : List Source} {w : Waiter} {s : Source} :
    answer? sources w = some s ↔
      sources.find? (·.tag == w.tag) = some s ∧ Text.contains s.text w.substring = true := by
  rw [answer?, Option.filter_eq_some_iff]

theorem tag_of_source? {o : Output} {tag : String} {s : Source} (h : o.source? tag = some s) :
    s.tag = tag := by
  simpa using List.find?_some h

/-- **A watchful output.** -/
structure IsWatchful (o : Output) : Prop where
  /-- There is a program for each emitter. -/
  tags : o.sources.map (·.tag) = o.catalog.tags
  /-- The waiters can be told apart. -/
  tickets : (o.waiters.map (·.ticket)).Nodup
  /-- The next waiter can be told apart from them. -/
  fresh : ∀ x ∈ o.waiters, x.ticket < o.nextTicket
  /-- The text of a waiter is not there. -/
  pending : ∀ x ∈ o.waiters, answer? o.sources x = none

variable {o : Output} {actions : List Action} {aliases : AliasTable}

theorem isWatchful_ofCatalog (c : Catalog) : (ofCatalog c).IsWatchful where
  tags := by simp [ofCatalog, renderAll, Catalog.tags]
  tickets := by simp [ofCatalog]
  fresh := by simp [ofCatalog]
  pending := by simp [ofCatalog]

/-- The languages of a watchful output are those of its catalog. -/
theorem IsWatchful.isSome_source? (h : o.IsWatchful) (tag : String) :
    (o.source? tag).isSome = decide (tag ∈ o.catalog.tags) := by
  rw [← h.tags, source?, Bool.eq_iff_iff, List.find?_isSome]
  simp

theorem IsWatchful.subscribe (h : o.IsWatchful) (c : Callback) : (o.subscribe c).IsWatchful :=
  ⟨h.tags, h.tickets, h.fresh, h.pending⟩

theorem IsWatchful.unsubscribe (h : o.IsWatchful) (c : Callback) : (o.unsubscribe c).IsWatchful :=
  ⟨h.tags, h.tickets, h.fresh, h.pending⟩

theorem IsWatchful.freeze (h : o.IsWatchful) : o.freeze.IsWatchful :=
  ⟨h.tags, h.tickets, h.fresh, h.pending⟩

theorem IsWatchful.giveUp (h : o.IsWatchful) (ticket : ℕ) : (o.giveUp ticket).IsWatchful where
  tags := h.tags
  tickets := h.tickets.sublist (List.filter_sublist.map _)
  fresh x hx := h.fresh x (List.mem_of_mem_filter hx)
  pending x hx := h.pending x (List.mem_of_mem_filter hx)

/-- **A waiter is registered**, its text not being there. -/
def register (o : Output) (tag substring : String) : Output :=
  { o with
    waiters := o.waiters ++ [⟨o.nextTicket, tag, substring⟩]
    nextTicket := o.nextTicket + 1 }

theorem IsWatchful.register (h : o.IsWatchful) {tag substring : String} {s : Source}
    (hs : o.source? tag = some s) (hnew : Text.contains s.text substring = false) :
    (o.register tag substring).IsWatchful where
  tags := h.tags
  tickets := by
    rw [Output.register, List.map_append, List.nodup_append]
    refine ⟨h.tickets, by simp, ?_⟩
    simp only [List.mem_map, List.map_cons, List.map_nil, List.mem_singleton]
    rintro t ⟨x, hx, rfl⟩ u rfl
    exact Nat.ne_of_lt (h.fresh x hx)
  fresh x hx := by
    rcases List.mem_append.mp hx with hx | hx
    · exact Nat.lt_succ_of_lt (h.fresh x hx)
    · rw [List.mem_singleton.mp hx]
      exact Nat.lt_succ_self _
  pending x hx := by
    rcases List.mem_append.mp hx with hx | hx
    · exact h.pending x hx
    · rw [List.mem_singleton.mp hx, answer?_eq_none]
      rintro t ht
      obtain rfl : s = t := Option.some.inj (hs.symm.trans ht)
      exact hnew

/-- The waiter that was registered last is given up: nothing is left of it but its number. -/
theorem IsWatchful.giveUp_register (h : o.IsWatchful) (tag substring : String) :
    (o.register tag substring).giveUp o.nextTicket = { o with nextTicket := o.nextTicket + 1 } := by
  have hleft : o.waiters.filter (·.ticket != o.nextTicket) = o.waiters :=
    List.filter_eq_self.mpr fun x hx => by simpa using Nat.ne_of_lt (h.fresh x hx)
  simp [Output.giveUp, Output.register, List.filter_append, hleft]

/-! ### Updates of a watchful output -/

/-- **The programs after an update.** -/
theorem sources_update (o : Output) (actions : List Action) (aliases : AliasTable) :
    (o.update actions aliases).1.sources =
      if o.frozen then o.sources else renderAll o.catalog actions aliases := by
  rw [update]
  split
  · rfl
  · dsimp only
    split <;> rfl

theorem catalog_update (o : Output) (actions : List Action) (aliases : AliasTable) :
    (o.update actions aliases).1.catalog = o.catalog := by
  rw [update]
  split
  · rfl
  · dsimp only
    split <;> rfl

/-- If no text changes, no waiter has its text then either. -/
theorem IsWatchful.answer?_of_unchanged (h : o.IsWatchful) {rendered : List Source}
    (htags : rendered.map (·.tag) = o.catalog.tags)
    (hsame : (rendered.any fun s => (o.source? s.tag).any (·.text != s.text)) = false) {x : Waiter}
    (hx : x ∈ o.waiters) : answer? rendered x = none := by
  rw [answer?_eq_none]
  intro s hs
  have hmem := List.mem_of_find?_eq_some hs
  have htag : s.tag = x.tag := by simpa using List.find?_some hs
  have hbefore : (o.source? x.tag).isSome := by
    rw [source?, List.find?_isSome]
    obtain ⟨t, ht, heq⟩ : ∃ t ∈ o.sources, t.tag = s.tag := by
      rw [← List.mem_map, h.tags, ← htags]
      exact List.mem_map_of_mem hmem
    exact ⟨t, ht, by simp [heq, htag]⟩
  obtain ⟨t, ht⟩ := Option.isSome_iff_exists.mp hbefore
  have htext : t.text = s.text := by simpa [htag, ht] using List.any_eq_false.mp hsame s hmem
  rw [← htext]
  exact answer?_eq_none.mp (h.pending x hx) t ht

/-- **An update answers** the waiters whose text is in the new programs, and takes them off. -/
theorem IsWatchful.update_eq (h : o.IsWatchful) (actions : List Action) (aliases : AliasTable) :
    (o.update actions aliases).1.waiters =
        o.waiters.filter (fun x => (answer? (o.update actions aliases).1.sources x).isNone) ∧
      (o.update actions aliases).2.answered = o.waiters.filterMap fun x =>
        (answer? (o.update actions aliases).1.sources x).map fun s => (x.ticket, s) := by
  -- a watchful output that answers nobody
  have hnone {sources : List Source} (hsources : ∀ x ∈ o.waiters, answer? sources x = none) :
      o.waiters = o.waiters.filter (fun x => (answer? sources x).isNone) ∧
        [] = o.waiters.filterMap fun x => (answer? sources x).map fun s => (x.ticket, s) :=
    ⟨(List.filter_eq_self.mpr fun x hx => by simp [hsources x hx]).symm,
      (List.filterMap_eq_nil_iff.mpr fun x hx => by simp [hsources x hx]).symm⟩
  rw [update]
  split
  · exact hnone h.pending
  · dsimp only
    split
    · next hsame =>
      refine hnone fun x hx => h.answer?_of_unchanged ?_ (by simpa using hsame) hx
      simp [renderAll, Catalog.tags]
    · exact ⟨rfl, rfl⟩

theorem IsWatchful.update (h : o.IsWatchful) (actions : List Action) (aliases : AliasTable) :
    (o.update actions aliases).1.IsWatchful := by
  have hwaiters := (h.update_eq actions aliases).1
  have hnext : (o.update actions aliases).1.nextTicket = o.nextTicket := by
    rw [Output.update]
    split
    · rfl
    · dsimp only
      split <;> rfl
  refine ⟨?_, ?_, fun x hx => ?_, fun x hx => ?_⟩
  · rw [catalog_update, sources_update]
    split
    · exact h.tags
    · simp [renderAll, Catalog.tags]
  · rw [hwaiters]
    exact h.tickets.sublist (List.filter_sublist.map _)
  · rw [hnext]
    rw [hwaiters] at hx
    exact h.fresh x (List.mem_of_mem_filter hx)
  · rw [hwaiters] at hx
    simpa using List.of_mem_filter hx

/-- **Who goes on waiting.** -/
theorem IsWatchful.mem_waiters_update (h : o.IsWatchful) {x : Waiter} :
    x ∈ (o.update actions aliases).1.waiters ↔
      x ∈ o.waiters ∧ answer? (o.update actions aliases).1.sources x = none := by
  rw [(h.update_eq actions aliases).1, List.mem_filter, Option.isNone_iff_eq_none]

/-- **Whom an update answers**, and with which program. -/
theorem IsWatchful.lookup_answered (h : o.IsWatchful) (actions : List Action) (aliases : AliasTable)
    {x : Waiter} (hx : x ∈ o.waiters) :
    (o.update actions aliases).2.answered.lookup x.ticket =
      answer? (o.update actions aliases).1.sources x := by
  rw [(h.update_eq actions aliases).2]
  exact lookup_filterMap (·.ticket) _ h.tickets hx

end Output

end Scribe
