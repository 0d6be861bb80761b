import Scribe.Proofs.Browser.Outcome
import Scribe.Proofs.Browser.Tracking

/-!
# The announcements of a watch

A page that appears is not announced at once, since the notice that it is a popup comes after the
one that it has appeared. It *waits to be announced*: it is among those not announced and among
those scheduled. A turn ends the waiting with the event that the page was opened, and the notice
that it is a popup ends it with the event that tells of the popup. Either way the page does not wait
again, since it appears only once, and nothing else announces it.

* A page that waits, and of which no notice says that it is a popup, is announced by the first turn,
  if one comes (`Scribe.Watch.Follows.announcements_of_noticed`).
* A page that does not wait, and does not appear, is not announced
  (`Scribe.Watch.Follows.announcements_eq_nil`).

`Scribe.Watch.run_makesOf` puts together what a watch that was set over a context makes of notices
and turns in any order (`Scribe.Watch.MakesOf`).
-/

namespace Scribe

/-- Whether an event tells that the page with an identifier has appeared. -/
def Event.announces (id : String) (e : Event) : Bool :=
  match e.what with
  | .opened _ => e.page == id
  | .popup page _ => page == id
  | _ => false

/-- **A genuine notice**: what a page reports is not that a page has appeared. -/
def Notice.IsGenuine : Notice → Prop
  | .message _ content =>
    ∀ id now, ∀ e ∈ (Watch.readMessage id now content).events, ∀ page, e.announces page = false
  | _ => True

namespace Watch

/-- When the first turn comes, if one does, and the addresses that the pages have then. -/
def firstTurn? : List Delivery → Option (Float × (PageHandle → String))
  | [] => none
  | .turn now urlOf :: _ => some (now, urlOf)
  | .hear .. :: rest => firstTurn? rest

/-- Whether a delivery is the notice that a page is a popup. -/
def Delivery.IsPopup (h : PageHandle) : Delivery → Prop
  | .hear _ (.popup _ h' _) => h' = h
  | _ => False

/-- Whether a delivery is a genuine notice or a turn. -/
def Delivery.IsGenuine : Delivery → Prop
  | .hear _ n => n.IsGenuine
  | .turn .. => True

variable {met more : List PageHandle} {ds before : List Delivery} {d : Delivery} {h : PageHandle}
  {w : Watch} {now : Float}

/-! ### What announces a page -/

/-- An event of a page that has been seen announces a page only if it tells so. -/
theorem announces_of_mem_report {what : Occurrence} {e : Event} (he : e ∈ w.report now h what)
    (id : String) : e.announces id = (event e.page now what).announces id := by
  rw [Event.announces, (idOf?_of_mem_report he).2]
  rfl

section

variable (hw : Follows met before w)

include hw

/-- **What announces a page** is the notice that it is a popup, or a turn before which it was not
announced. -/
theorem Follows.announces (hseen : seenIn met (before ++ [d]) <+: more) (hmem : h ∈ more)
    (hgenuine : d.IsGenuine) {e : Event} (he : e ∈ (w.perform d).2)
    (hannounces : e.announces (idAmong more h) = true) :
    d.IsPopup h ∨ ∃ now urlOf, d = .turn now urlOf ∧ idAmong more h ∈ w.unannounced := by
  rcases d with ⟨now, n⟩ | ⟨now, urlOf⟩
  · refine .inl ?_
    cases n with
    | page g =>
      rw [hw.perform_page] at he
      cases he
    | popup opener g url =>
      by_cases hopener : opener ∈ seenIn met before
      · rw [hw.perform_popup hopener] at he
        obtain rfl := List.mem_singleton.mp he
        rw [seenIn_popup hopener] at hseen
        rw [← idAmong_of_seen hseen (mem_see.mpr (.inr rfl))] at hannounces
        exact ((idAmong_inj hmem).mp (beq_iff_eq.mp hannounces).symm).symm
      · rw [hw.perform_popup_of_not_mem hopener] at he
        cases he
    | closed g =>
      rw [announces_of_mem_report he] at hannounces
      cases hannounces
    | navigated g url main =>
      cases main with
      | false => cases he
      | true =>
        rw [announces_of_mem_report he] at hannounces
        cases hannounces
    | download g filename =>
      rw [announces_of_mem_report he] at hannounces
      cases hannounces
    | dialog g type message =>
      rw [announces_of_mem_report he] at hannounces
      cases hannounces
    | message sender content =>
      cases sender with
      | page g =>
        simp only [Watch.perform, hear] at he
        cases hid : w.idOf? g with
        | none => simp [hid] at he
        | some id =>
          rw [hid] at he
          rw [hgenuine id now e he] at hannounces
          cases hannounces
      | _ => cases he
  · obtain ⟨entry, -, hentry, rfl⟩ := exists_of_mem_announceAll he
    exact .inr ⟨now, urlOf, rfl, beq_iff_eq.mp hannounces ▸ hentry⟩

/-- **A page waits to be announced** after a delivery only if it appears with it, or waited before
and is not the popup that it tells of; and unless the delivery is a turn, it does then. -/
theorem Follows.mem_unannounced (hseen : seenIn met (before ++ [d]) <+: more) (hmem : h ∈ more) :
    (idAmong more h ∈ (w.perform d).1.unannounced →
      h ∈ appearing [d] ∨ idAmong more h ∈ w.unannounced) ∧
    (idAmong more h ∈ w.unannounced → ¬d.IsPopup h → firstTurn? [d] = none →
      idAmong more h ∈ (w.perform d).1.unannounced) := by
  rcases d with ⟨now, n⟩ | ⟨now, urlOf⟩
  · cases n with
    | page g =>
      rw [seenIn_page] at hseen
      rw [hw.perform_page, ← idAmong_of_seen hseen (mem_see.mpr (.inr rfl))]
      dsimp only
      refine ⟨fun hid => ?_, fun hid _ _ => ?_⟩
      · split at hid
        · exact .inr hid
        · refine (List.mem_append.mp hid).symm.imp (fun hid => ?_) fun hid => hid
          rw [(idAmong_inj hmem).mp (List.mem_singleton.mp hid)]
          exact List.mem_singleton_self g
      · split
        · exact hid
        · exact List.mem_append_left _ hid
    | popup opener g url =>
      by_cases hopener : opener ∈ seenIn met before
      · rw [seenIn_popup hopener] at hseen
        rw [hw.perform_popup hopener, ← idAmong_of_seen hseen (mem_see.mpr (.inr rfl))]
        refine ⟨fun hid => .inr (List.mem_filter.mp hid).1, fun hid hpopup _ => ?_⟩
        refine List.mem_filter.mpr ⟨hid, bne_iff_ne.mpr fun heq => hpopup ?_⟩
        exact ((idAmong_inj hmem).mp heq).symm
      · rw [hw.perform_popup_of_not_mem hopener]
        exact ⟨.inr, fun hid _ _ => hid⟩
    | message sender content => cases sender <;> exact ⟨.inr, fun hid _ _ => hid⟩
    | _ => exact ⟨.inr, fun hid _ _ => hid⟩
  · refine ⟨fun hid => .inr ?_, fun _ _ hnone => nomatch hnone⟩
    change _ ∈ (announceAll now urlOf w.unannounced w.scheduled).1 at hid
    rw [announceAll_fst] at hid
    exact (List.mem_filter.mp hid).1

/-- **A page that does not wait to be announced is not announced**, as long as it does not appear
and is not told to be a popup. -/
theorem Follows.announcements_eq_nil (hseen : seenIn met (before ++ ds) <+: more) (hmem : h ∈ more)
    (hgenuine : ∀ d ∈ ds, d.IsGenuine) (hpopup : ∀ d ∈ ds, ¬d.IsPopup h)
    (happears : h ∉ appearing ds) (hid : idAmong more h ∉ w.unannounced) :
    (w.run ds).2.filter (·.announces (idAmong more h)) = [] := by
  induction ds generalizing before w with
  | nil => rfl
  | cons d rest ih =>
    rw [List.append_cons] at hseen
    rw [← List.singleton_append, appearing_append, List.mem_append, not_or] at happears
    have hone := (prefix_seenIn_append met (before ++ [d]) rest).trans hseen
    have hnext : idAmong more h ∉ (w.perform d).1.unannounced := fun hleft =>
      ((hw.mem_unannounced hone hmem).1 hleft).elim happears.1 hid
    rw [Watch.run, List.filter_append, ih (hw.perform d) hseen
      (fun d hd => hgenuine d (List.mem_cons_of_mem _ hd))
      (fun d hd => hpopup d (List.mem_cons_of_mem _ hd)) happears.2 hnext, List.append_nil,
      List.filter_eq_nil_iff]
    intro e he hannounces
    rcases hw.announces hone hmem (hgenuine d List.mem_cons_self) he hannounces with
      hd | ⟨-, -, -, hleft⟩
    · exact hpopup d List.mem_cons_self hd
    · exact hid hleft

/-- **A page that waits to be announced** is announced by the next turn, with the address that it
has then. -/
theorem Follows.announcements_turn (hseen : seenIn met before <+: more) (now : Float)
    (urlOf : PageHandle → String) (hnodup : (noticedIn before).Nodup) (hh : h ∈ noticedIn before)
    (hid : idAmong more h ∈ w.unannounced) :
    (w.turn now urlOf).2.filter (·.announces (idAmong more h)) =
      [event (idAmong more h) now (.opened (some (urlOf h)))] := by
  have hscheduled : w.scheduled = (noticedIn before).map fun g => (g, idAmong more g) := by
    rw [hw.scheduled]
    exact List.map_congr_left fun g hg => by rw [idAmong_of_seen hseen (hw.noticed g hg)]
  have hkeys : (w.scheduled.map (·.2)).Nodup := by
    have hmap : w.scheduled.map (·.2) = (noticedIn before).map (idAmong more) := by
      rw [hscheduled, List.map_map]
      rfl
    rw [hmap]
    exact hnodup.map_on fun g hg _ _ heq => (idAmong_inj (hseen.subset (hw.noticed g hg))).mp heq
  have hsame : ∀ g ∈ noticedIn before,
      ((event (idAmong more g) now (.opened (some (urlOf g)))).announces (idAmong more h) &&
        w.unannounced.contains (idAmong more g)) = (g == h) := by
    intro g hg
    change (idAmong more g == idAmong more h && _) = _
    by_cases heq : g = h
    · simp [heq, hid]
    · have hne : idAmong more g ≠ idAmong more h := fun hids =>
        heq ((idAmong_inj (hseen.subset (hw.noticed g hg))).mp hids)
      rw [beq_eq_false_iff_ne.mpr heq, beq_eq_false_iff_ne.mpr hne, Bool.false_and]
  change (announceAll now urlOf w.unannounced w.scheduled).2.filter _ = _
  rw [announceAll_snd now urlOf _ hkeys, hscheduled]
  simp only [List.filter_map, List.map_map, List.filter_filter, Function.comp_def]
  rw [List.filter_congr hsame, List.filter_beq, List.count_eq_one_of_mem hnodup hh]
  rfl

/-- **A page that waits to be announced** and is not told to be a popup is announced by the first
turn that comes, and by nothing else. -/
theorem Follows.announcements_of_noticed (hseen : seenIn met (before ++ ds) <+: more)
    (hgenuine : ∀ d ∈ ds, d.IsGenuine) (hpopup : ∀ d ∈ ds, ¬d.IsPopup h)
    (happearing : (appearing (before ++ ds)).Nodup) (hh : h ∈ noticedIn before)
    (hid : idAmong more h ∈ w.unannounced) :
    (w.run ds).2.filter (·.announces (idAmong more h)) =
      (firstTurn? ds).toList.map fun t => event (idAmong more h) t.1 (.opened (some (t.2 h))) := by
  have hmem : h ∈ more := hseen.subset
    ((prefix_seenIn_append met before ds).subset (hw.noticed h hh))
  induction ds generalizing before w with
  | nil => rfl
  | cons d rest ih =>
    rw [List.append_cons] at hseen happearing
    have hone := (prefix_seenIn_append met (before ++ [d]) rest).trans hseen
    have hlater := fun d hd => hgenuine d (List.mem_cons_of_mem _ hd)
    have hnone := fun d hd => hpopup d (List.mem_cons_of_mem _ hd)
    rw [Watch.run, List.filter_append]
    rcases d with ⟨now, n⟩ | ⟨now, urlOf⟩
    · have hfirst : (w.perform (.hear now n)).2.filter (·.announces (idAmong more h)) = [] := by
        refine List.filter_eq_nil_iff.mpr fun e he hannounces => ?_
        rcases hw.announces hone hmem (hgenuine _ List.mem_cons_self) he hannounces with
          hd | ⟨_, _, hturn, -⟩
        · exact hpopup _ List.mem_cons_self hd
        · cases hturn
      rw [hfirst, List.nil_append, ih (hw.perform _) hseen hlater hnone happearing ?_ ?_]
      · rfl
      · rw [noticedIn_concat]
        exact List.mem_append_left _ hh
      · exact (hw.mem_unannounced hone hmem).2 hid (hpopup _ List.mem_cons_self) rfl
    · -- nothing waits after a turn, and the page does not appear again
      have happeared : h ∈ appearing (before ++ [.turn now urlOf]) := by
        rw [appearing_append]
        exact List.mem_append_left _ ((noticed_sublist before).subset hh)
      have hagain : h ∉ appearing rest := fun hagain => by
        rw [appearing_append] at happearing
        exact (List.nodup_append.mp happearing).2.2 h happeared h hagain rfl
      have hleft : idAmong more h ∉ (w.perform (.turn now urlOf)).1.unannounced := fun hleft =>
        List.not_mem_nil ((hw.perform (.turn now urlOf)).unannounced _ hleft)
      have hnodup : (noticedIn before).Nodup := by
        rw [appearing_append, appearing_append] at happearing
        exact (happearing.sublist (List.sublist_append_left _ _)).sublist
          ((noticed_sublist before).trans (List.sublist_append_left _ _))
      rw [(hw.perform _).announcements_eq_nil hseen hmem hlater hnone hagain hleft, List.append_nil]
      exact hw.announcements_turn ((prefix_seenIn_append met before _).trans hone) now urlOf hnodup
        hh hid

end

/-! ### Setting the watch -/

/-- **A page is met** that has not been met before. -/
theorem Follows.meet (hw : Follows met [] w) (hnew : h ∉ met) (now : Float) (url : String) :
    Follows (met ++ [h]) [] (w.meet now h url).1 ∧
      (w.meet now h url).1.unannounced = w.unannounced ∧
      (w.meet now h url).2 = [event (idAfter met.length) now (.opened (some url))] := by
  have hsee : see (seenIn met []) h = met ++ [h] := if_neg hnew
  have hid : idAmong (met ++ [h]) h = idAfter met.length := by
    rw [idAmong, List.idxOf_append_of_notMem hnew]
    simp
  rw [Watch.meet, hw.track, hsee, hid]
  exact ⟨⟨rfl, hw.listening, by rintro p ⟨⟩, hw.scheduled, hw.unannounced⟩, rfl, rfl⟩

end Watch

namespace Launcher

open Watch

variable {e : Engine} {l l' : Launcher} {w : Watch} {met : List PageHandle} {now : Float}

/-- The watch takes a step. -/
theorem outcome_withWatch (hwatch : l.watch = some w) (step : Watch → Watch × List Event) :
    outcome (withWatch step) l =
      (.ok (), { l with watch := some (step w).1, events := l.events ++ (step w).2 }) := by
  obtain ⟨_, _, _, _, _, watch, _, _, _⟩ := l
  obtain rfl : watch = some w := hwatch
  rfl

/-- A call whose errors do no harm is nothing to the watch. -/
theorem watch_of_guarded_call {c : Call} {r : Except BrowserFault Unit}
    (h : outcome (guarded (call e c) (pure ())) l = (r, l')) :
    l'.watch = l.watch ∧ l'.events = l.events := by
  rw [guarded, outcome_tryCatch, outcome_call] at h
  generalize e.reply c = reply at h
  obtain _ | (message | _) := reply
  all_goals
    obtain ⟨-, rfl⟩ := Prod.mk.inj h
    exact ⟨rfl, rfl⟩

theorem watch_of_call {c : Call} (h : outcome (call e c) l = (.ok (), l')) :
    l'.watch = l.watch ∧ l'.events = l.events := by
  rw [outcome_call] at h
  obtain ⟨-, rfl⟩ := Prod.mk.inj h
  exact ⟨rfl, rfl⟩

/-- **The open pages are met**, one after the other. -/
theorem meet_of_forM {pages : List (PageHandle × String)}
    (h : outcome (pages.forM fun (h, url) => do
      withWatch fun w => w.meet now h url
      guarded (call e (.evaluate h)) (pure ())) l = (.ok (), l'))
    (hwatch : l.watch = some w) (hw : Follows met [] w) (hnodup : (met ++ pages.map (·.1)).Nodup) :
    ∃ w', l'.watch = some w' ∧ Follows (met ++ pages.map (·.1)) [] w' ∧
      w'.unannounced = w.unannounced ∧
      l'.events = l.events ++ pages.mapIdx fun k p =>
        event (idAfter (met.length + k)) now (.opened (some p.2)) := by
  induction pages generalizing l met w with
  | nil =>
    obtain ⟨-, rfl⟩ := Prod.mk.inj h
    exact ⟨w, hwatch, by simpa using hw, rfl, by simp⟩
  | cons p rest ih =>
    obtain ⟨_, l₁, hfirst, hrest⟩ := outcome_bind_ok h
    obtain ⟨_, l₂, hmeet, hcall⟩ := outcome_bind_ok hfirst
    obtain ⟨hcallWatch, hcallEvents⟩ := watch_of_guarded_call hcall
    have hnew : p.1 ∉ met := fun hmem =>
      (List.nodup_append.mp hnodup).2.2 p.1 hmem p.1 (by simp) rfl
    obtain ⟨hfollows, hunannounced, hevents⟩ := hw.meet hnew now p.2
    have hl₂ := (Prod.mk.inj (hmeet.symm.trans (outcome_withWatch hwatch _))).2
    have hsplit : met ++ (p :: rest).map (·.1) = met ++ [p.1] ++ rest.map (·.1) := by simp
    rw [hsplit] at hnodup ⊢
    obtain ⟨w', hw', hfollows', hunannounced', hevents'⟩ :=
      ih hrest (hcallWatch.trans (congrArg Launcher.watch hl₂)) hfollows hnodup
    refine ⟨w', hw', hfollows', hunannounced'.trans hunannounced, ?_⟩
    rw [hevents', hcallEvents, hl₂, hevents, List.mapIdx_cons, List.append_assoc]
    simp [Nat.add_comm 1, Nat.add_assoc]

/-- **A watch that is set** follows the open pages, and tells of each that it is open. -/
theorem follows_of_attach {pages : List (PageHandle × String)} (hwatch : l.watch = some {})
    (h : outcome (attach e now pages) l = (.ok (), l')) (hnodup : (pages.map (·.1)).Nodup) :
    ∃ w, l'.watch = some w ∧ Follows (pages.map (·.1)) [] w ∧ w.unannounced = [] ∧
      l'.events = l.events ++ pages.mapIdx fun k p =>
        event (idAfter k) now (.opened (some p.2)) := by
  obtain ⟨_, _, ⟨⟩, h⟩ := outcome_bind_ok h
  rw [hwatch] at h
  obtain ⟨_, l₁, hset, h⟩ := outcome_bind_ok h
  obtain ⟨_, l₂, hbinding, h⟩ := outcome_bind_ok h
  obtain ⟨_, l₃, hscript, h⟩ := outcome_bind_ok h
  obtain ⟨_, l₄, hlisten, h⟩ := outcome_bind_ok h
  obtain ⟨_, l₅, hlistens, h⟩ := outcome_bind_ok h
  have hl₁ := (Prod.mk.inj (hset.symm.trans (outcome_withWatch hwatch _))).2
  obtain ⟨hwatch₂, hevents₂⟩ := watch_of_call hbinding
  obtain ⟨hwatch₃, hevents₃⟩ := watch_of_call hscript
  obtain ⟨hwatch₄, hevents₄⟩ := watch_of_call hlisten
  have hattached : l₄.watch = some { attached := true } := by
    rw [hwatch₄, hwatch₃, hwatch₂, hl₁]
  have hl₅ := (Prod.mk.inj (hlistens.symm.trans (outcome_withWatch hattached _))).2
  have hw : Follows [] [] { attached := true, listening := true } :=
    ⟨rfl, rfl, by rintro p ⟨⟩, rfl, by rintro id ⟨⟩⟩
  obtain ⟨w, hw', hfollows, hunannounced, hevents⟩ :=
    meet_of_forM h (congrArg Launcher.watch hl₅) hw hnodup
  refine ⟨w, hw', hfollows, hunannounced, ?_⟩
  rw [hevents, hl₅, hevents₄, hevents₃, hevents₂, hl₁]
  simp

end Launcher

namespace Watch

/-! ### Any order of deliveries -/

/-- **What a watch makes of deliveries**, in whatever order they come, when `open` are the pages
that were open before and `met` the events that told so. -/
structure MakesOf (openPages : List PageHandle) (met : List Event) (ds : List Delivery)
    (w : Watch) :
    Prop where
  /-- The pages are numbered as they are first seen. -/
  numbered : ∀ k h, (seenIn openPages ds)[k]? = some h → (w.run ds).1.idOf? h = some (idAfter k)
  /-- A page that has not been seen has no identifier. -/
  unseen : ∀ h, h ∉ seenIn openPages ds → (w.run ds).1.idOf? h = none
  /-- Different pages have different identifiers. -/
  distinct : ∀ h g id, (w.run ds).1.idOf? h = some id → (w.run ds).1.idOf? g = some id → h = g
  /-- A page keeps its identifier. -/
  kept : ∀ before after, ds = before ++ after → ∀ h id,
    (w.run before).1.idOf? h = some id → (w.run ds).1.idOf? h = some id
  /-- An event bears the identifier of the page that it comes from. -/
  sources : ∀ before d after, ds = before ++ d :: after →
    ∀ e ∈ ((w.run before).1.perform d).2, ∃ h ∈ d.sources before,
      (w.run ds).1.idOf? h = some e.page
  /-- A page that appears and is no popup is announced once, as opened, by the first turn, with the
  address that it has then. -/
  opened : ∀ before now h rest, ds = before ++ .hear now (.page h) :: rest →
    (∀ d ∈ ds, ¬d.IsPopup h) → (∀ d ∈ ds, d.IsGenuine) →
    ∃ id, (w.run ds).1.idOf? h = some id ∧
      (met ++ (w.run ds).2).filter (·.announces id) =
        (firstTurn? rest).toList.map fun t => event id t.1 (.opened (some (t.2 h)))
  /-- A page that appears and is told to be a popup before the next turn is announced once, as the
  popup of its opener. -/
  popup : ∀ before now h mid t opener address later,
    ds = before ++ .hear now (.page h) :: mid ++ .hear t (.popup opener h address) :: later →
    firstTurn? mid = none → opener ∈ seenIn openPages (before ++ .hear now (.page h) :: mid) →
    (∀ d ∈ before ++ mid ++ later, ¬d.IsPopup h) → (∀ d ∈ ds, d.IsGenuine) →
    ∃ id openerId, (w.run ds).1.idOf? h = some id ∧ (w.run ds).1.idOf? opener = some openerId ∧
      (met ++ (w.run ds).2).filter (·.announces id) =
        [event openerId t (.popup id (some address))]

section

variable {pages : List (PageHandle × String)} {met more : List PageHandle} {ds : List Delivery}
  {w : Watch} {h : PageHandle} {now : Float}

/-- **A page that appears** and is no popup is announced by the first turn after that. -/
theorem Follows.announcements_of_page (hw : Follows met [] w) (hnone : w.unannounced = [])
    {before rest : List Delivery} {t : Float}
    (hseen : seenIn met (before ++ .hear t (.page h) :: rest) <+: more)
    (hgenuine : ∀ d ∈ before ++ .hear t (.page h) :: rest, d.IsGenuine)
    (hpopup : ∀ d ∈ before ++ .hear t (.page h) :: rest, ¬d.IsPopup h)
    (happearing : (appearing (before ++ .hear t (.page h) :: rest)).Nodup) :
    (w.run (before ++ .hear t (.page h) :: rest)).2.filter (·.announces (idAmong more h)) =
      (firstTurn? rest).toList.map fun t =>
        event (idAmong more h) t.1 (.opened (some (t.2 h))) := by
  have hw₁ := hw.run before
  rw [List.nil_append] at hw₁
  have hw₂ := hw₁.perform (.hear t (.page h))
  have hsplit : before ++ .hear t (.page h) :: rest =
      before ++ [.hear t (.page h)] ++ rest := List.append_cons ..
  have hone : see (seenIn met before) h <+: more := by
    rw [← seenIn_page met before t h]
    rw [hsplit] at hseen
    exact (prefix_seenIn_append met _ rest).trans hseen
  have hid : idAmong (see (seenIn met before) h) h = idAmong more h :=
    (idAmong_of_seen hone (mem_see.mpr (.inr rfl))).symm
  have hmem : h ∈ more := hone.subset (mem_see.mpr (.inr rfl))
  have hearlier : h ∉ appearing before := fun hearlier => by
    rw [appearing_append] at happearing
    exact (List.nodup_append.mp happearing).2.2 h hearlier h List.mem_cons_self rfl
  rw [run_append, Watch.run, List.filter_append, List.filter_append,
    hw.announcements_eq_nil ((prefix_seenIn_append met before _).trans hseen) hmem
      (fun d hd => hgenuine d (List.mem_append_left _ hd))
      (fun d hd => hpopup d (List.mem_append_left _ hd)) hearlier (by simp [hnone])]
  rw [hsplit] at hseen happearing
  rw [hw₂.announcements_of_noticed hseen
      (fun d hd => hgenuine d (List.mem_append_right _ (List.mem_cons_of_mem _ hd)))
      (fun d hd => hpopup d (List.mem_append_right _ (List.mem_cons_of_mem _ hd))) happearing ?_ ?_,
    hw₁.perform_page]
  · rfl
  · rw [noticedIn_concat]
    exact List.mem_append_right _ (List.mem_singleton_self _)
  · rw [hw₁.perform_page, hid]
    dsimp only
    split
    · next hcontains => simpa using hcontains
    · exact List.mem_append_right _ (List.mem_singleton_self _)

/-- **A page that appears** and is told to be a popup before the next turn is announced as that. -/
theorem Follows.announcements_of_popup (hw : Follows met [] w) (hnone : w.unannounced = [])
    {before mid later : List Delivery} {t u : Float} {address : String} {opener : PageHandle}
    (hseen : seenIn met (before ++ .hear t (.page h) :: mid ++
      .hear u (.popup opener h address) :: later) <+: more)
    (hmid : firstTurn? mid = none)
    (hopener : opener ∈ seenIn met (before ++ .hear t (.page h) :: mid))
    (hgenuine : ∀ d ∈ before ++ .hear t (.page h) :: mid ++
      .hear u (.popup opener h address) :: later, d.IsGenuine)
    (hpopup : ∀ d ∈ before ++ mid ++ later, ¬d.IsPopup h)
    (happearing : (appearing (before ++ .hear t (.page h) :: mid ++
      .hear u (.popup opener h address) :: later)).Nodup) :
    (w.run (before ++ .hear t (.page h) :: mid ++
        .hear u (.popup opener h address) :: later)).2.filter (·.announces (idAmong more h)) =
      [event (idAmong more opener) u (.popup (idAmong more h) (some address))] := by
  have hw₁ := hw.run (before ++ .hear t (.page h) :: mid)
  rw [List.nil_append] at hw₁
  have hw₂ := hw₁.perform (.hear u (.popup opener h address))
  have hsplit : before ++ .hear t (.page h) :: mid ++
      .hear u (.popup opener h address) :: later =
      before ++ .hear t (.page h) :: mid ++ [.hear u (.popup opener h address)] ++ later :=
    List.append_cons ..
  have hfirst := (prefix_seenIn_append met (before ++ .hear t (.page h) :: mid) _).trans hseen
  have hone : see (seenIn met (before ++ .hear t (.page h) :: mid)) h <+: more := by
    rw [← seenIn_popup hopener u h address]
    rw [hsplit] at hseen
    exact (prefix_seenIn_append met _ later).trans hseen
  have hmem : h ∈ more := hone.subset (mem_see.mpr (.inr rfl))
  have hid : idAmong (see (seenIn met (before ++ .hear t (.page h) :: mid)) h) h =
      idAmong more h := (idAmong_of_seen hone (mem_see.mpr (.inr rfl))).symm
  have hmade : (w.run (before ++ .hear t (.page h) :: mid)).2.filter
      (·.announces (idAmong more h)) = [] := by
    have hother : ∀ d ∈ before ++ .hear t (.page h) :: mid, ¬d.IsPopup h := by
      intro d hd
      rcases List.mem_append.mp hd with hd | hd
      · exact hpopup d (by simp [hd])
      · rcases List.mem_cons.mp hd with rfl | hd
        · exact fun hpage => hpage
        · exact hpopup d (by simp [hd])
    rw [appearing_append] at happearing
    rw [hw.announcements_of_page hnone hfirst (fun d hd => hgenuine d (List.mem_append_left _ hd))
      hother (happearing.sublist (List.sublist_append_left _ _)), hmid]
    rfl
  have hlater : h ∉ appearing later := fun hlater => by
    rw [hsplit, appearing_append] at happearing
    exact (List.nodup_append.mp happearing).2.2 h (by simp [appearing, Delivery.appears?]) h hlater
      rfl
  rw [hsplit] at hseen
  rw [run_append, Watch.run, List.filter_append, List.filter_append, hmade,
    hw₂.announcements_eq_nil hseen hmem
      (fun d hd => hgenuine d (List.mem_append_right _ (List.mem_cons_of_mem _ hd)))
      (fun d hd => hpopup d (List.mem_append_right _ hd)) hlater ?_,
    hw₁.perform_popup hopener, hid, idAmong_of_seen hfirst hopener]
  · simp [Event.announces, event]
  · rw [hw₁.perform_popup hopener, hid]
    exact fun hleft => by simpa using (List.mem_filter.mp hleft).2

/-- The events of the pages that were open before announce these pages only. -/
theorem filter_announces_met (hseen : pages.map (·.1) <+: more) (hmem : h ∈ more)
    (hnew : h ∉ pages.map (·.1)) (hnodup : (pages.map (·.1)).Nodup) :
    (pages.mapIdx fun k p => event (idAfter k) now (.opened (some p.2))).filter
      (·.announces (idAmong more h)) = [] := by
  refine List.filter_eq_nil_iff.mpr fun e he hannounces => ?_
  obtain ⟨k, hk, rfl⟩ := List.mem_mapIdx.mp he
  have hk' : k < (pages.map (·.1)).length := by simpa using hk
  have hid : idAfter k = idAmong more (pages[k]).1 := by
    have hget : (pages[k]).1 = (pages.map (·.1))[k] := by simp
    rw [idAmong_of_seen hseen (List.mem_map_of_mem (List.getElem_mem hk)), idAmong, hget,
      hnodup.idxOf_getElem k hk']
  rw [Event.announces, event, beq_iff_eq, hid] at hannounces
  exact hnew ((idAmong_inj hmem).mp hannounces.symm ▸ List.mem_map_of_mem (List.getElem_mem hk))

/-- **What a watch makes of the pages.** A watch that was set over a context with some open pages is
told of pages that appear, each once and none of those that were open, and of whatever else, in any
order, with turns in between (`Scribe.Watch.MakesOf`). -/
theorem run_makesOf (e : Engine) (now : Float) (pages : List (PageHandle × String))
    (ds : List Delivery) {l l' : Launcher} (hwatch : l.watch = some {})
    (hattach : Launcher.outcome (Launcher.attach e now pages) l = (.ok (), l'))
    (hpages : (pages.map (·.1) ++ appearing ds).Nodup) :
    ∃ w met, l'.watch = some w ∧ l'.events = l.events ++ met ∧
      met = (pages.mapIdx fun k p => event (idAfter k) now (.opened (some p.2))) ∧
      MakesOf (pages.map (·.1)) met ds w := by
  obtain ⟨hopen, happearing, hdisjoint⟩ := List.nodup_append.mp hpages
  obtain ⟨w, hw', hw, hnone, hevents⟩ := Launcher.follows_of_attach hwatch hattach hopen
  have hfollows (ds : List Delivery) : Follows (pages.map (·.1)) ds (w.run ds).1 := hw.run ds
  have hkept {before after : List Delivery} (hds : ds = before ++ after) {h : PageHandle}
      {id : String} (hid : (w.run before).1.idOf? h = some id) :
      (w.run ds).1.idOf? h = some id := by
    obtain ⟨hmem, rfl⟩ := (hfollows before).idOf?_eq_some hid
    have hseen := prefix_seenIn_append (pages.map (·.1)) before after
    rw [← hds] at hseen
    rw [(hfollows ds).idOf?, if_pos (hseen.subset hmem), idAmong_of_seen hseen hmem]
  have hseen {before after : List Delivery} {t : Float} {h : PageHandle}
      (hds : ds = before ++ .hear t (.page h) :: after) : h ∈ seenIn (pages.map (·.1)) ds := by
    rw [hds, List.append_cons]
    refine (prefix_seenIn_append _ _ after).subset ?_
    rw [seenIn_page]
    exact mem_see.mpr (.inr rfl)
  have hmet {before after : List Delivery} {t : Float} {h : PageHandle}
      (hds : ds = before ++ .hear t (.page h) :: after) :
      (pages.mapIdx fun k p => event (idAfter k) now (.opened (some p.2))).filter
        (·.announces (idAmong (seenIn (pages.map (·.1)) ds) h)) = [] := by
    refine filter_announces_met (prefix_seenIn _ ds) (hseen hds) (fun hopened => ?_) hopen
    exact hdisjoint h hopened h (by simp [hds, appearing, Delivery.appears?]) rfl
  refine ⟨w, _, hw', hevents, rfl, fun k h hk => ?_,
    fun h hh => by rw [(hfollows ds).idOf?, if_neg hh],
    fun h g id hh hg => ?_,
    fun before after hds h id hid => hkept hds hid, fun before d after hds e he => ?_,
    fun before t h rest hds hpopup hgenuine => ?_,
    fun before t h mid u opener address later hds hmid hopener hpopup hgenuine => ?_⟩
  · obtain ⟨hlt, rfl⟩ := List.getElem?_eq_some_iff.mp hk
    rw [(hfollows ds).idOf?, if_pos (List.getElem_mem hlt), idAmong,
      (nodup_seenIn hopen).idxOf_getElem]
  · obtain ⟨hmem, hid⟩ := (hfollows ds).idOf?_eq_some hh
    obtain ⟨-, hid'⟩ := (hfollows ds).idOf?_eq_some hg
    exact (idAmong_inj hmem).mp (hid.symm.trans hid')
  · obtain ⟨h, hh, hid⟩ := (hfollows before).exists_source he
    exact ⟨h, hh, hkept hds hid⟩
  · refine ⟨_, by rw [(hfollows ds).idOf?, if_pos (hseen hds)], ?_⟩
    rw [List.filter_append, hmet hds, List.nil_append]
    subst hds
    exact hw.announcements_of_page hnone List.prefix_rfl hgenuine hpopup happearing
  · have hds' : ds = before ++ .hear t (.page h) ::
        (mid ++ .hear u (.popup opener h address) :: later) := by simp [hds]
    have hopenerSeen : opener ∈ seenIn (pages.map (·.1)) ds := by
      rw [hds]
      exact (prefix_seenIn_append _ _ _).subset hopener
    refine ⟨_, _, by rw [(hfollows ds).idOf?, if_pos (hseen hds')],
      by rw [(hfollows ds).idOf?, if_pos hopenerSeen], ?_⟩
    rw [List.filter_append, hmet hds', List.nil_append]
    subst hds
    exact hw.announcements_of_popup hnone List.prefix_rfl hmid hopener hgenuine hpopup happearing

/-- A page appears, and its opener tells that it is a popup before the next turn. -/
theorem run_makesOf_of_popup :
    ∃ w met id openerId,
      (Launcher.outcome (Launcher.attach .sound 0 [("main", "about:blank")])
        { options := {}, watch := some {} }).2.watch = some w ∧
      (w.run [.hear 0 (.page "child"), .hear 0 (.popup "main" "child" "a.html"),
        .turn 1 fun _ => "b.html"]).1.idOf? "child" = some id ∧
      (w.run [.hear 0 (.page "child"), .hear 0 (.popup "main" "child" "a.html"),
        .turn 1 fun _ => "b.html"]).1.idOf? "main" = some openerId ∧
      (met ++ (w.run [.hear 0 (.page "child"), .hear 0 (.popup "main" "child" "a.html"),
        .turn 1 fun _ => "b.html"]).2).filter (·.announces id) =
          [event openerId 0 (.popup id (some "a.html"))] := by
  obtain ⟨w, met, hw, -, -, hmakes⟩ := run_makesOf .sound 0 [("main", "about:blank")]
    [.hear 0 (.page "child"), .hear 0 (.popup "main" "child" "a.html"), .turn 1 fun _ => "b.html"]
    (l := { options := {}, watch := some {} }) rfl rfl (by decide)
  obtain ⟨id, openerId, hid, hopener, hannounced⟩ := hmakes.popup [] 0 "child" [] 0 "main"
    "a.html" [.turn 1 fun _ => "b.html"] rfl rfl (by decide) (by simp [Delivery.IsPopup])
    (by simp [Delivery.IsGenuine, Notice.IsGenuine])
  exact ⟨w, met, id, openerId, hw, hid, hopener, hannounced⟩

end

end Watch

end Scribe
