import Mathlib.Data.List.Nodup
import Scribe.Browser.Watch
import Scribe.Proofs.Document
import Scribe.Proofs.PageNames.Numbering

/-!
# The pages that a watch follows

What reaches a watch, the notices of a browser and its own turns, may come in any order. A page is
first seen when it appears, when the page that opened it tells of it, or when the watch is set,
whichever comes first. So what a watch knows is not a matter of its last step: it is described by
**all that has reached it** (`Scribe.Watch.Follows`), with the pages in the order in which they are
first seen (`Scribe.Watch.seenIn`) and those that have appeared since its last turn
(`Scribe.Watch.noticedIn`).

* `Scribe.Watch.Follows.perform` – a watch follows whatever reaches it next;
* `Scribe.Watch.Follows.idOf?` – the identifier of a page is its number among those seen;
* `Scribe.Watch.Follows.exists_source` – an event bears the identifier of the page it comes from.

An event may come from a notice, and then from the page that the notice is about, or from a turn,
and then from a page that has appeared since the turn before (`Scribe.Watch.Delivery.sources`).
-/

namespace Scribe

/-! ### Where a notice comes from -/

/-- **The page that a notice comes from**: the opener of a popup; a page that appears says nothing
itself. -/
def Notice.source? : Notice → Option PageHandle
  | .page .. | .message .stranger _ | .message .unnameable _ => none
  | .popup h .. | .closed h | .navigated h .. | .download h _ | .dialog h ..
  | .message (.page h) _ =>
    some h

namespace Watch

/-- **What reaches a watch**: a notice of the browser, or its turn, when the pages have some
addresses. -/
inductive Delivery where
  | hear (now : Float) (n : Notice)
  | turn (now : Float) (urlOf : PageHandle → String)

/-- **A delivery**: the watch after it, and the events. -/
def perform (w : Watch) : Delivery → Watch × List Event
  | .hear now n => ((w.hear now n).1, (w.hear now n).2.events)
  | .turn now urlOf => w.turn now urlOf

/-- **Deliveries one after the other.** -/
def run (w : Watch) : List Delivery → Watch × List Event
  | [] => (w, [])
  | d :: rest => ((run (w.perform d).1 rest).1, (w.perform d).2 ++ (run (w.perform d).1 rest).2)

theorem run_append (w : Watch) (ds more : List Delivery) :
    w.run (ds ++ more) =
      (((w.run ds).1.run more).1, (w.run ds).2 ++ ((w.run ds).1.run more).2) := by
  induction ds generalizing w with
  | nil => rfl
  | cons d rest ih => simp only [List.cons_append, run, ih, List.append_assoc]

/-! ### What has been seen and noticed -/

/-- The pages seen, with one more unless it is among them. -/
def see (seen : List PageHandle) (h : PageHandle) : List PageHandle :=
  if h ∈ seen then seen else seen ++ [h]

/-- The pages seen after a delivery: a page is seen when it appears, or as the popup of a page that
has been seen. -/
def Delivery.sees (seen : List PageHandle) : Delivery → List PageHandle
  | .hear _ (.page h) => see seen h
  | .hear _ (.popup opener h _) => if opener ∈ seen then see seen h else seen
  | _ => seen

/-- **The pages seen**, in the order in which they are first seen, when some have been met before.
-/
def seenIn (met : List PageHandle) (ds : List Delivery) : List PageHandle :=
  ds.foldl Delivery.sees met

/-- The page that appears, if one does. -/
def Delivery.appears? : Delivery → Option PageHandle
  | .hear _ (.page h) => some h
  | _ => none

/-- The pages that appear, in order. -/
def appearing (ds : List Delivery) : List PageHandle :=
  ds.filterMap Delivery.appears?

/-- The pages that appeared since the last turn, after a delivery. -/
def Delivery.notices (noticed : List PageHandle) (d : Delivery) : List PageHandle :=
  match d with
  | .turn .. => []
  | _ => noticed ++ d.appears?.toList

/-- **The pages that appeared since the last turn.** -/
def noticedIn (ds : List Delivery) : List PageHandle :=
  ds.foldl Delivery.notices []

/-- **The pages that the events of a delivery may come from**, after other deliveries. -/
def Delivery.sources (before : List Delivery) : Delivery → List PageHandle
  | .hear _ n => n.source?.toList
  | .turn .. => noticedIn before

/-- **The identifier of a page** among those that are seen. -/
def idAmong (seen : List PageHandle) (h : PageHandle) : String :=
  idAfter (seen.idxOf h)

variable {met seen : List PageHandle} {ds before rest : List Delivery} {d : Delivery}
  {h g : PageHandle} {w : Watch} {id : String} {now : Float} {urlOf : PageHandle → String}

theorem idAfter_inj {m n : ℕ} (h : idAfter m = idAfter n) : m = n :=
  Nat.succ.inj (repr_inj ((String.append_right_inj "page-").mp h))

theorem idAmong_inj (h₁ : h ∈ seen) : idAmong seen h = idAmong seen g ↔ h = g :=
  ⟨fun heq => (List.idxOf_inj h₁).mp (idAfter_inj heq), fun heq => heq ▸ rfl⟩

theorem prefix_see (seen : List PageHandle) (h : PageHandle) : seen <+: see seen h := by
  rw [see]
  split
  · exact List.prefix_rfl
  · exact List.prefix_append _ _

theorem mem_see : g ∈ see seen h ↔ g ∈ seen ∨ g = h := by
  rw [see]
  split
  · next hmem => exact ⟨Or.inl, fun hg => hg.elim (fun hg => hg) fun heq => heq ▸ hmem⟩
  · simp

theorem prefix_sees (seen : List PageHandle) (d : Delivery) : seen <+: d.sees seen := by
  rcases d with ⟨now, n⟩ | ⟨now, urlOf⟩
  · cases n with
    | page h => exact prefix_see seen h
    | popup opener h url =>
      rw [Delivery.sees]
      split
      · exact prefix_see seen h
      · exact List.prefix_rfl
    | _ => exact List.prefix_rfl
  · exact List.prefix_rfl

theorem seenIn_append (met : List PageHandle) (ds more : List Delivery) :
    seenIn met (ds ++ more) = seenIn (seenIn met ds) more :=
  List.foldl_append

theorem prefix_seenIn (met : List PageHandle) (ds : List Delivery) : met <+: seenIn met ds := by
  induction ds generalizing met with
  | nil => exact List.prefix_rfl
  | cons d rest ih => exact (prefix_sees met d).trans (ih _)

/-- What has been seen stays so. -/
theorem prefix_seenIn_append (met : List PageHandle) (ds more : List Delivery) :
    seenIn met ds <+: seenIn met (ds ++ more) := by
  rw [seenIn_append]
  exact prefix_seenIn _ more

/-- A page that has been seen keeps its identifier. -/
theorem idAmong_of_seen {more : List PageHandle} (hseen : seen <+: more) (hmem : h ∈ seen) :
    idAmong more h = idAmong seen h := by
  obtain ⟨tail, rfl⟩ := hseen
  rw [idAmong, idAmong, List.idxOf_append_of_mem hmem]

theorem nodup_see (hnodup : seen.Nodup) : (see seen h).Nodup := by
  rw [see]
  split
  · exact hnodup
  · next hmem =>
    rw [← List.concat_eq_append]
    exact hnodup.concat hmem

theorem nodup_seenIn (hmet : met.Nodup) : (seenIn met ds).Nodup := by
  induction ds generalizing met with
  | nil => exact hmet
  | cons d rest ih =>
    refine ih ?_
    rcases d with ⟨now, n⟩ | ⟨now, urlOf⟩
    · cases n with
      | page h => exact nodup_see hmet
      | popup opener h url =>
        rw [Delivery.sees]
        split
        · exact nodup_see hmet
        · exact hmet
      | _ => exact hmet
    · exact hmet

theorem appearing_append (ds more : List Delivery) :
    appearing (ds ++ more) = appearing ds ++ appearing more :=
  List.filterMap_append

theorem noticedIn_concat (ds : List Delivery) (d : Delivery) :
    noticedIn (ds ++ [d]) = d.notices (noticedIn ds) :=
  List.foldl_concat ..

/-- The pages that appeared since the last turn are some of those that appeared. -/
theorem noticed_sublist (ds : List Delivery) : (noticedIn ds).Sublist (appearing ds) := by
  induction ds using List.reverseRecOn with
  | nil => exact List.Sublist.refl _
  | append_singleton ds d ih =>
    rw [noticedIn_concat, appearing_append]
    rcases d with ⟨now, n⟩ | ⟨now, urlOf⟩
    · rw [Delivery.notices]
      · refine ih.append ?_
        cases n <;> exact List.Sublist.refl _
      · rintro _ _ ⟨⟩
    · exact List.nil_sublist _

/-! ### Announcements -/

/-- The announcements leave nothing that was scheduled. -/
theorem announceAll_fst (now : Float) (urlOf : PageHandle → String) (unannounced : List String)
    (scheduled : List (PageHandle × String)) :
    (announceAll now urlOf unannounced scheduled).1 =
      unannounced.filter fun id => !(scheduled.map (·.2)).contains id := by
  induction scheduled generalizing unannounced with
  | nil => simp [announceAll]
  | cons entry rest ih =>
    rw [announceAll, announce]
    by_cases hmem : unannounced.contains entry.2
    · simp only [if_pos hmem, ih, List.filter_filter, List.map_cons, List.contains_cons]
      refine List.filter_congr fun id _ => ?_
      simp [Bool.and_comm, bne]
    · simp only [if_neg hmem, ih]
      refine List.filter_congr fun id hid => ?_
      have hne : id ≠ entry.2 := fun heq => hmem (by simpa [← heq] using hid)
      simp [hne]

/-- **The announcements** are of those scheduled that are not announced yet, if each is scheduled
once. -/
theorem announceAll_snd (now : Float) (urlOf : PageHandle → String) (unannounced : List String)
    {scheduled : List (PageHandle × String)} (hnodup : (scheduled.map (·.2)).Nodup) :
    (announceAll now urlOf unannounced scheduled).2 =
      (scheduled.filter fun entry => unannounced.contains entry.2).map fun entry =>
        event entry.2 now (.opened (some (urlOf entry.1))) := by
  induction scheduled generalizing unannounced with
  | nil => rfl
  | cons entry rest ih =>
    rw [List.map_cons, List.nodup_cons] at hnodup
    rw [announceAll, announce]
    by_cases hmem : unannounced.contains entry.2
    · -- the others that are scheduled are other pages, so they stay unannounced
      have hrest : (rest.filter fun other =>
          (unannounced.filter (· != entry.2)).contains other.2) =
          rest.filter fun other => unannounced.contains other.2 := by
        refine List.filter_congr fun other hother => ?_
        have hne : other.2 ≠ entry.2 := fun heq =>
          hnodup.1 (heq ▸ List.mem_map_of_mem hother)
        simp [hne]
      simp only [if_pos hmem, ih _ hnodup.2, hrest, List.filter_cons, List.map_cons,
        List.singleton_append]
    · simp only [if_neg hmem, ih _ hnodup.2, List.filter_cons, List.nil_append]

/-- What is announced was scheduled. -/
theorem exists_of_mem_announceAll {unannounced : List String}
    {scheduled : List (PageHandle × String)} {e : Event}
    (he : e ∈ (announceAll now urlOf unannounced scheduled).2) :
    ∃ entry ∈ scheduled, entry.2 ∈ unannounced ∧
      e = event entry.2 now (.opened (some (urlOf entry.1))) := by
  induction scheduled generalizing unannounced with
  | nil => cases he
  | cons entry rest ih =>
    rw [announceAll, announce] at he
    by_cases hmem : unannounced.contains entry.2
    · simp only [if_pos hmem, List.mem_append, List.mem_singleton] at he
      rcases he with rfl | he
      · exact ⟨entry, List.mem_cons_self, by simpa using hmem, rfl⟩
      · obtain ⟨other, hother, hunannounced, rfl⟩ := ih he
        exact ⟨other, List.mem_cons_of_mem _ hother, (List.mem_filter.mp hunannounced).1, rfl⟩
    · simp only [if_neg hmem, List.nil_append] at he
      obtain ⟨other, hother, hunannounced, rfl⟩ := ih he
      exact ⟨other, List.mem_cons_of_mem _ hother, hunannounced, rfl⟩

/-! ### A watch that follows -/

/-- **A watch follows** what has reached it: it knows the pages that have been seen, and it has
scheduled those that appeared since its last turn. What is not announced is scheduled. -/
structure Follows (met : List PageHandle) (ds : List Delivery) (w : Watch) : Prop where
  ids : w.ids = (seenIn met ds).mapIdx fun k h => (h, idAfter k)
  listening : w.listening = true
  noticed : ∀ h ∈ noticedIn ds, h ∈ seenIn met ds
  scheduled : w.scheduled = (noticedIn ds).map fun h => (h, idAmong (seenIn met ds) h)
  unannounced : ∀ id ∈ w.unannounced, id ∈ w.scheduled.map (·.2)

theorem Follows.idOf? (hw : Follows met ds w) (h : PageHandle) :
    w.idOf? h = if h ∈ seenIn met ds then some (idAmong (seenIn met ds) h) else none := by
  rw [Watch.idOf?, hw.ids]
  exact PageNames.lookup_mapIdx idAfter

theorem Follows.idOf?_eq_some (hw : Follows met ds w) (hid : w.idOf? h = some id) :
    h ∈ seenIn met ds ∧ id = idAmong (seenIn met ds) h := by
  rw [hw.idOf?] at hid
  split at hid
  · next hmem => exact ⟨hmem, (Option.some.inj hid).symm⟩
  · cases hid

theorem Follows.track (hw : Follows met ds w) (h : PageHandle) :
    w.track h = (idAmong (see (seenIn met ds) h) h,
      { w with ids := (see (seenIn met ds) h).mapIdx fun k h => (h, idAfter k) }) := by
  rw [Watch.track, hw.idOf?, see]
  by_cases hmem : h ∈ seenIn met ds
  · simp only [if_pos hmem, ← hw.ids]
  · simp only [if_neg hmem, hw.ids, idAmong, List.idxOf_append_of_notMem hmem, List.length_mapIdx,
      List.mapIdx_append]
    simp

/-- **A page appears.** -/
theorem Follows.perform_page (hw : Follows met ds w) (now : Float) (h : PageHandle) :
    w.perform (.hear now (.page h)) =
      ({ w with
          ids := (see (seenIn met ds) h).mapIdx fun k h => (h, idAfter k)
          unannounced :=
            if w.unannounced.contains (idAmong (see (seenIn met ds) h) h) then w.unannounced
            else w.unannounced ++ [idAmong (see (seenIn met ds) h) h]
          scheduled := w.scheduled ++ [(h, idAmong (see (seenIn met ds) h) h)] }, []) := by
  simp only [Watch.perform, hear, if_pos hw.listening, hw.track]

/-- **A page is the popup** of one that has been seen. -/
theorem Follows.perform_popup (hw : Follows met ds w) {opener : PageHandle}
    (hopener : opener ∈ seenIn met ds) (now : Float) (h : PageHandle) (url : String) :
    w.perform (.hear now (.popup opener h url)) =
      ({ w with
          ids := (see (seenIn met ds) h).mapIdx fun k h => (h, idAfter k)
          unannounced := w.unannounced.filter (· != idAmong (see (seenIn met ds) h) h) },
        [event (idAmong (seenIn met ds) opener) now
          (.popup (idAmong (see (seenIn met ds) h) h) (some url))]) := by
  simp only [Watch.perform, hear, hw.idOf?, if_pos hopener, hw.track]

/-- A popup of a page that has not been seen goes unnoticed. -/
theorem Follows.perform_popup_of_not_mem (hw : Follows met ds w) {opener : PageHandle}
    (hopener : opener ∉ seenIn met ds) (now : Float) (h : PageHandle) (url : String) :
    w.perform (.hear now (.popup opener h url)) = (w, []) := by
  simp only [Watch.perform, hear, hw.idOf?, if_neg hopener]

theorem seenIn_page (met : List PageHandle) (ds : List Delivery) (now : Float) (h : PageHandle) :
    seenIn met (ds ++ [.hear now (.page h)]) = see (seenIn met ds) h :=
  seenIn_append ..

theorem seenIn_popup {opener : PageHandle} (hopener : opener ∈ seenIn met ds) (now : Float)
    (h : PageHandle) (url : String) :
    seenIn met (ds ++ [.hear now (.popup opener h url)]) = see (seenIn met ds) h := by
  rw [seenIn_append]
  exact if_pos hopener

/-- What follows after a delivery that leaves the pages seen and noticed as they are. -/
theorem Follows.same (hw : Follows met ds w) (hsees : d.sees (seenIn met ds) = seenIn met ds)
    (hnotices : d.notices (noticedIn ds) = noticedIn ds) : Follows met (ds ++ [d]) w := by
  have hseen : seenIn met (ds ++ [d]) = seenIn met ds := by rw [seenIn_append]; exact hsees
  have hnoticed : noticedIn (ds ++ [d]) = noticedIn ds := by rw [noticedIn_concat, hnotices]
  exact ⟨by rw [hseen, hw.ids], hw.listening, by rw [hnoticed, hseen]; exact hw.noticed,
    by rw [hnoticed, hseen, hw.scheduled], hw.unannounced⟩

/-- **A watch follows a delivery.** -/
theorem Follows.perform (hw : Follows met ds w) (d : Delivery) :
    Follows met (ds ++ [d]) (w.perform d).1 := by
  have hold (g : PageHandle) : ∀ h ∈ noticedIn ds,
      idAmong (see (seenIn met ds) g) h = idAmong (seenIn met ds) h := fun h hh =>
    idAmong_of_seen (prefix_see _ _) (hw.noticed h hh)
  rcases d with ⟨now, n⟩ | ⟨now, urlOf⟩
  · cases n with
    | page h =>
      have hnoticed : noticedIn (ds ++ [.hear now (.page h)]) = noticedIn ds ++ [h] :=
        noticedIn_concat ..
      rw [hw.perform_page]
      refine ⟨by rw [seenIn_page], hw.listening, fun g hg => ?_, ?_, fun id hid => ?_⟩
      · rw [hnoticed, List.mem_append, List.mem_singleton] at hg
        rw [seenIn_page]
        exact mem_see.mpr (hg.imp_left (hw.noticed g))
      · rw [hnoticed, seenIn_page, List.map_append, hw.scheduled]
        exact congrArg (· ++ _) (List.map_congr_left fun g hg => by rw [hold h g hg])
      · rw [List.map_append, List.mem_append]
        dsimp only at hid
        split at hid
        · exact .inl (hw.unannounced id hid)
        · exact (List.mem_append.mp hid).imp (hw.unannounced id) fun hid => hid
    | popup opener h url =>
      by_cases hopener : opener ∈ seenIn met ds
      · have hnoticed : noticedIn (ds ++ [.hear now (.popup opener h url)]) = noticedIn ds := by
          rw [noticedIn_concat]
          exact List.append_nil _
        rw [hw.perform_popup hopener]
        refine ⟨by rw [seenIn_popup hopener], hw.listening, fun g hg => ?_, ?_, fun id hid => ?_⟩
        · rw [hnoticed] at hg
          rw [seenIn_popup hopener]
          exact mem_see.mpr (.inl (hw.noticed g hg))
        · rw [hnoticed, seenIn_popup hopener, hw.scheduled]
          exact List.map_congr_left fun g hg => by rw [hold h g hg]
        · exact hw.unannounced id (List.mem_filter.mp hid).1
      · rw [hw.perform_popup_of_not_mem hopener]
        exact hw.same (if_neg hopener) (List.append_nil _)
    | closed h => exact hw.same rfl (List.append_nil _)
    | navigated h url main => exact hw.same rfl (List.append_nil _)
    | download h filename => exact hw.same rfl (List.append_nil _)
    | dialog h type message => exact hw.same rfl (List.append_nil _)
    | message sender content =>
      cases sender <;> exact hw.same rfl (List.append_nil _)
  · have hseen : seenIn met (ds ++ [.turn now urlOf]) = seenIn met ds := seenIn_append ..
    have hnoticed : noticedIn (ds ++ [.turn now urlOf]) = [] := noticedIn_concat ..
    refine ⟨by rw [hseen]; exact hw.ids, hw.listening, by simp [hnoticed],
      by rw [hnoticed]; rfl, fun id hid => ?_⟩
    -- what is not announced is scheduled, so nothing is left of it
    change id ∈ (announceAll now urlOf w.unannounced w.scheduled).1 at hid
    rw [announceAll_fst, List.mem_filter] at hid
    exact absurd (hw.unannounced id hid.1) (by simpa using hid.2)

/-- **Follows a run.** -/
theorem Follows.run (hw : Follows met before w) (ds : List Delivery) :
    Follows met (before ++ ds) (w.run ds).1 := by
  induction ds generalizing before w with
  | nil => rwa [List.append_nil]
  | cons d rest ih =>
    rw [List.append_cons]
    exact ih (hw.perform d)

/-! ### Where an event comes from -/

/-- What is under the name of the page in a signed message. -/
theorem get?_signed (id : String) (entries : List (Value × Value)) :
    (signed id entries).get? "page_id" = some (.str id) := by
  have hothers : Value.field? (entries.filter fun e => !e.1.isStr "page_id") "page_id" = none := by
    rw [Value.field?, Option.map_eq_none_iff, List.find?_eq_none]
    intro e he
    simpa using (List.mem_filter.mp he).2
  rw [signed, Value.get?_map, Value.field?_append, hothers]
  rfl

/-- An event is of the page that its value names. -/
theorem page_of_shape {v : Value} {e : Event} (hv : v.get? "page_id" = some (.str id))
    (he : Event.shape now v = .ok e) : e.page = id := by
  have hpage {occurrence : Check Occurrence} {v' : Value} (hv' : v'.get? "page_id" = some (.str id))
      (he' : Event.withOccurrence now occurrence v' = .ok e) : e.page = id := by
    simp only [Event.withOccurrence, Checked.seq_eq_ok, Checked.map_eq_ok] at he'
    obtain ⟨_, _, ⟨_, _, ⟨_, _, ⟨page, hpage, rfl⟩, -, rfl⟩, -, rfl⟩, -, rfl⟩ := he'
    obtain ⟨w, hw, hpage⟩ := Check.required_eq_ok.mp hpage
    obtain rfl := Option.some.inj (hv'.symm.trans hw)
    exact (Checked.ok.inj hpage).symm
  cases v with
  | map entries =>
    simp only [Event.shape, Check.tagged] at he
    split at he
    · cases he
    · next word hword =>
      cases hshape : Event.occurrenceShape word with
      | none => simp [hshape, Checked.fault] at he
      | some occurrence =>
        simp only [hshape, Option.map_some] at he
        suffices hchecked : Event.withOccurrence now occurrence (.map entries) = .ok e from
          hpage hv hchecked
        cases hcheck : Event.withOccurrence now occurrence (.map entries) with
        | ok e' => simpa [hcheck, Checked.under] using he
        | faulty faults => simp [hcheck, Checked.under] at he
    · cases he
  | _ => cases he

/-- **A message gives events of the page that sends it**, whatever page it names. -/
theorem page_of_mem_readMessage {content : Value} {e : Event}
    (he : e ∈ (readMessage id now content).events) : e.page = id := by
  cases content with
  | map entries =>
    rw [readMessage] at he
    cases hshape : Event.shape now (signed id entries) with
    | faulty faults => simp [hshape] at he
    | ok e' =>
      obtain rfl : e = e' := by simpa [hshape] using he
      exact page_of_shape (get?_signed id entries) hshape
  | _ => cases he

/-- The event of a page that has been seen bears its identifier. -/
theorem idOf?_of_mem_report {what : Occurrence} {e : Event} (he : e ∈ w.report now h what) :
    w.idOf? h = some e.page ∧ e.what = what := by
  rw [report] at he
  cases hid : w.idOf? h with
  | none => simp [hid] at he
  | some id =>
    obtain rfl : e = event id now what := by simpa [hid] using he
    exact ⟨rfl, rfl⟩

/-- **An event bears the identifier of the page that it comes from.** -/
theorem Follows.exists_source (hw : Follows met before w) {e : Event}
    (he : e ∈ (w.perform d).2) : ∃ h ∈ d.sources before, w.idOf? h = some e.page := by
  rcases d with ⟨now, n⟩ | ⟨now, urlOf⟩
  · cases n with
    | page h =>
      rw [hw.perform_page] at he
      cases he
    | popup opener h url =>
      by_cases hopener : opener ∈ seenIn met before
      · rw [hw.perform_popup hopener] at he
        obtain rfl := List.mem_singleton.mp he
        exact ⟨opener, List.mem_singleton_self opener, by rw [hw.idOf?, if_pos hopener]; rfl⟩
      · rw [hw.perform_popup_of_not_mem hopener] at he
        cases he
    | closed h => exact ⟨h, List.mem_singleton_self h, (idOf?_of_mem_report he).1⟩
    | navigated h url main =>
      cases main with
      | false => cases he
      | true => exact ⟨h, List.mem_singleton_self h, (idOf?_of_mem_report he).1⟩
    | download h filename => exact ⟨h, List.mem_singleton_self h, (idOf?_of_mem_report he).1⟩
    | dialog h type message => exact ⟨h, List.mem_singleton_self h, (idOf?_of_mem_report he).1⟩
    | message sender content =>
      cases sender with
      | page h =>
        simp only [Watch.perform, hear] at he
        cases hid : w.idOf? h with
        | none => simp [hid] at he
        | some id =>
          rw [hid] at he
          exact ⟨h, List.mem_singleton_self h, by rw [hid, page_of_mem_readMessage he]⟩
      | _ => cases he
  · obtain ⟨entry, hentry, -, rfl⟩ := exists_of_mem_announceAll he
    rw [hw.scheduled] at hentry
    obtain ⟨h, hh, rfl⟩ := List.mem_map.mp hentry
    exact ⟨h, hh, by rw [hw.idOf?, if_pos (hw.noticed h hh)]; rfl⟩

end Watch

end Scribe
