import Scribe.Proofs.Dom.Criterion

/-!
# The selector of an element

`Scribe.Snapshot.identify` takes the first criterion of an element that singles it out, and its path
where there is none. Each strategy counts the elements that pass a test, so what is to be shown is
that the test is the criterion (`Scribe.Snapshot.hasOne_iff`) and that the element passes it itself.

The strategies are treated one by one and put together in `Scribe.Snapshot.identify_eq`. What counts
as deeper than an element matters for visible texts alone. The program looks at children; where
every text shows through, that is the same as looking at all that lies below
(`Scribe.Snapshot.singlesOut_isBelow_iff`).
-/

namespace Scribe

/-! ### Texts -/

theorem occursIn_iff {needle text : List Char} :
    Text.occursIn needle text = true ↔ needle <:+: text := by
  induction text with
  | nil => simp [Text.occursIn]
  | cons c rest ih =>
    rw [Text.occursIn, Bool.or_eq_true, ih, List.infix_cons_iff, List.isPrefixOf_iff_prefix]

theorem foldedIn_iff {words text : String} :
    foldedIn (Text.lowered words) text = true ↔ HoldsText text words :=
  occursIn_iff

/-- A text holds its squeezed form. -/
theorem holdsText_squeezed (text : String) : HoldsText text (Text.squeezed text) :=
  List.infix_rfl

theorem lowerChar_ne_nil (c : Char) : Text.lowerChar c ≠ [] := by
  have himages : ∀ entry ∈ Text.lowerExpansions, entry.2 ≠ [] := by decide
  rw [Text.lowerChar]
  split
  · simp
  · rw [Text.mapCase]
    split
    · rename_i image hlookup
      obtain ⟨l₁, l₂, hentries, -⟩ := List.lookup_eq_some_iff.mp hlookup
      simpa using himages (c.toNat, image) (by simp [hentries])
    · simp

theorem toList_lowered_eq_nil_iff {text : String} :
    (Text.lowered text).toList = [] ↔ text = "" := by
  rw [Text.lowered, String.toList_ofList, ← String.toList_eq_nil_iff]
  cases text.toList with
  | nil => simp [Text.lower, Text.lowerFrom]
  | cons c rest =>
    rw [Text.lower, Text.lowerFrom]
    simp only [List.append_eq_nil_iff, reduceCtorEq, iff_false, not_and]
    split
    · simp
    · exact fun h => absurd h (lowerChar_ne_nil c)

theorem holdsText_empty_iff {words : String} : HoldsText "" words ↔ words = "" := by
  have hfolded : (folded "").toList = [] := rfl
  rw [HoldsText, hfolded, List.infix_nil, toList_lowered_eq_nil_iff]

theorem nonEmpty?_eq_some_iff {o : Option String} {text : String} :
    nonEmpty? o = some text ↔ o = some text ∧ text ≠ "" := by
  cases o with
  | none => simp [nonEmpty?]
  | some a =>
    by_cases h : a = "" <;> simp [nonEmpty?, h]
    rintro rfl
    exact h

/-! ### Counting -/

/-- A list without repetitions has a single item if there is no other. -/
theorem eq_singleton_iff {α : Type} {l : List α} (h : l.Nodup) {a : α} :
    l = [a] ↔ a ∈ l ∧ ∀ x ∈ l, x = a := by
  constructor
  · rintro rfl
    simp
  · rintro ⟨ha, hothers⟩
    refine List.perm_singleton.mp ((List.perm_ext_iff_of_nodup h (List.nodup_singleton a)).mpr
      fun x => ⟨fun hx => List.mem_singleton.mpr (hothers x hx), fun hx => ?_⟩)
    rwa [List.mem_singleton.mp hx]

namespace Snapshot

section

variable {s : Snapshot} {e : Element} {deeper : Element → Element → Prop} {c : Criterion}

/-- **A test that is a criterion is passed by one element if the criterion singles out an element
that passes it.** -/
theorem hasOne_iff {p : Element → Bool} (hrefs : (s.elements.map Element.ref).Nodup)
    (he : e ∈ s.elements) (hp : ∀ x, p x = true ↔ c.Matches deeper x) (hself : c.Matches deeper e) :
    s.hasOne p = true ↔ s.SinglesOut deeper c e := by
  have hnodup : (s.elements.filter p).Nodup := (List.Nodup.of_map _ hrefs).filter p
  have hmem : ∀ x, x ∈ s.elements.filter p ↔ x ∈ s.elements ∧ c.Matches deeper x := by
    simp [List.mem_filter, hp]
  rw [hasOne, count, beq_iff_eq, List.countP_eq_length_filter, List.length_eq_one_iff]
  constructor
  · rintro ⟨a, ha⟩
    obtain ⟨-, hothers⟩ := (eq_singleton_iff hnodup).mp ha
    refine ⟨hself, fun x hx hmatches => ?_⟩
    exact (hothers x ((hmem x).mpr ⟨hx, hmatches⟩)).trans
      (hothers e ((hmem e).mpr ⟨he, hself⟩)).symm
  · rintro ⟨-, hothers⟩
    exact ⟨e, (eq_singleton_iff hnodup).mpr ⟨(hmem e).mpr ⟨he, hself⟩, fun x hx =>
      hothers x ((hmem x).mp hx).1 ((hmem x).mp hx).2⟩⟩

open Classical in
/-- **The first criterion of a list that singles out an element.** -/
noncomputable def firstUnique (s : Snapshot) (deeper : Element → Element → Prop) (e : Element)
    (cs : List Criterion) : Option Criterion :=
  cs.find? fun c => s.SinglesOut deeper c e

theorem firstUnique_append (cs ds : List Criterion) :
    s.firstUnique deeper e (cs ++ ds) =
      (s.firstUnique deeper e cs).or (s.firstUnique deeper e ds) :=
  List.find?_append

theorem firstUnique_nil : s.firstUnique deeper e [] = none := rfl

open Classical in
theorem firstUnique_cons (cs : List Criterion) :
    s.firstUnique deeper e (c :: cs) =
      if s.SinglesOut deeper c e then some c else s.firstUnique deeper e cs := by
  rw [firstUnique, List.find?_cons]
  by_cases h : s.SinglesOut deeper c e <;> simp [h, firstUnique]

/-- **A count that decides on a criterion**: the selector if the criterion singles out the element,
and what comes next if it does not. -/
theorem ite_hasOne {p : Element → Bool} {cs : List Criterion} {next : Option Selector}
    (hrefs : (s.elements.map Element.ref).Nodup) (he : e ∈ s.elements)
    (hp : ∀ x, p x = true ↔ c.Matches deeper x) (hself : c.Matches deeper e)
    (hnext : next = (s.firstUnique deeper e cs).map Criterion.selector) :
    (if s.hasOne p then some c.selector else next) =
      (s.firstUnique deeper e (c :: cs)).map Criterion.selector := by
  classical
  rw [firstUnique_cons, hnext]
  simp only [hasOne_iff hrefs he hp hself]
  split <;> rfl

end

/-! ### The strategies -/

section

variable {s : Snapshot} {e : Element} (hrefs : (s.elements.map Element.ref).Nodup)
  (he : e ∈ s.elements)

include hrefs he

theorem byTestId_eq (key : String) : s.byTestId key e =
    (s.firstUnique s.IsChild e (e.testIdCriteria key)).map Criterion.selector := by
  rw [byTestId, Element.testIdCriteria]
  cases hid : nonEmpty? (e.attribute? key) with
  | none => rfl
  | some id =>
    have hself := (nonEmpty?_eq_some_iff.mp hid).1
    exact ite_hasOne hrefs he (c := .testId key id) (fun x => by simp [Criterion.Matches]) hself rfl

theorem byRole_eq : s.byRole e =
    (s.firstUnique s.IsChild e e.roleCriteria).map Criterion.selector := by
  rw [byRole, Element.roleCriteria]
  cases hkind : nonEmpty? e.role with
  | none => rfl
  | some kind =>
    cases hname : nonEmpty? (some (Text.squeezed e.name)) with
    | none => rfl
    | some name =>
      have hrole : e.role = some kind := (nonEmpty?_eq_some_iff.mp hkind).1
      obtain rfl : Text.squeezed e.name = name := by
        simpa using (nonEmpty?_eq_some_iff.mp hname).1
      refine ite_hasOne hrefs he (c := .role kind (Text.squeezed e.name) false) (fun x => ?_)
        ⟨hrole, holdsText_squeezed e.name⟩
        (ite_hasOne hrefs he (c := .role kind (Text.squeezed e.name) true) (fun x => ?_)
          ⟨hrole, rfl⟩ rfl)
      · simp [Criterion.Matches, foldedIn_iff]
      · simp [Criterion.Matches]

theorem byLabel_eq : s.byLabel e =
    (s.firstUnique s.IsChild e e.labelCriteria).map Criterion.selector := by
  rw [byLabel, Element.labelCriteria]
  cases hlabel : nonEmpty? (e.label.map Text.squeezed) with
  | none => rfl
  | some words =>
    obtain ⟨found, hfound, rfl⟩ := Option.map_eq_some_iff.mp (nonEmpty?_eq_some_iff.mp hlabel).1
    refine ite_hasOne hrefs he (c := .label (Text.squeezed found)) (fun x => ?_)
      ⟨found, hfound, holdsText_squeezed found⟩ rfl
    simp [Criterion.Matches, Option.any_eq_true, foldedIn_iff]

theorem byPlaceholder_eq : s.byPlaceholder e =
    (s.firstUnique s.IsChild e e.placeholderCriteria).map Criterion.selector := by
  have hgiven : nonEmpty? (some (Text.squeezed (placeholderOf e))) =
      nonEmpty? ((e.attribute? "placeholder").map Text.squeezed) := by
    rw [placeholderOf]
    cases e.attribute? "placeholder" <;> rfl
  rw [byPlaceholder, Element.placeholderCriteria, hgiven]
  cases hplaceholder : nonEmpty? ((e.attribute? "placeholder").map Text.squeezed) with
  | none => rfl
  | some words =>
    obtain ⟨hwords, hne⟩ := nonEmpty?_eq_some_iff.mp hplaceholder
    obtain ⟨found, hfound, rfl⟩ := Option.map_eq_some_iff.mp hwords
    refine ite_hasOne hrefs he (c := .placeholder (Text.squeezed found)) (fun x => ?_)
      ⟨found, hfound, holdsText_squeezed found⟩ rfl
    rw [foldedIn_iff, placeholderOf, Criterion.Matches]
    -- an element without a placeholder is tested as if it had the empty one, which holds no text
    -- but the empty one
    cases x.attribute? "placeholder" with
    | none => simp [holdsText_empty_iff, hne]
    | some other => simp

end

/-! ### Visible texts -/

section

variable {s : Snapshot} {e : Element} (hrefs : (s.elements.map Element.ref).Nodup)
  (he : e ∈ s.elements)

theorem mem_deepestWithText_iff {words : String} {x : Element} :
    x ∈ s.deepestWithText (Text.lowered words) ↔
      x ∈ s.elements ∧ (Criterion.text words).Matches s.IsChild x := by
  have hbelow : (∀ y ∈ s.elements, foldedIn (Text.lowered words) y.text = true →
      y.parent ≠ some x.ref) ↔ ∀ y, s.IsChild x y → ¬ HoldsText y.text words := by
    simp only [IsChild, foldedIn_iff, and_imp]
    exact forall₂_congr fun y hy => ⟨fun h hp ht => h ht hp, fun h ht hp => h hp ht⟩
  rw [deepestWithText, List.mem_filter, List.mem_filter, foldedIn_iff, and_assoc, Criterion.Matches,
    ← hbelow]
  simp

include hrefs in
theorem deepestWithText_eq_singleton_iff {words : String} (he : e ∈ s.elements) :
    s.deepestWithText (Text.lowered words) = [e] ↔
      s.SinglesOut s.IsChild (.text words) e := by
  have hnodup : (s.deepestWithText (Text.lowered words)).Nodup :=
    ((List.Nodup.of_map _ hrefs).filter _).filter _
  rw [eq_singleton_iff hnodup, SinglesOut]
  simp only [mem_deepestWithText_iff, he, true_and, and_imp]

include hrefs he in
theorem byText_eq : s.byText e =
    (s.firstUnique s.IsChild e e.textCriteria).map Criterion.selector := by
  rw [byText, Element.textCriteria]
  cases htext : nonEmpty? (some (Text.squeezed e.text)) with
  | none => rfl
  | some words =>
    rw [Option.filter_some]
    change (if _ then _ else _) = _
    split
    · simp only [Option.toList_some, List.map_cons, List.map_nil, firstUnique_cons, firstUnique_nil]
      by_cases hunique : s.SinglesOut s.IsChild (.text words) e
      · rw [(deepestWithText_eq_singleton_iff hrefs he).mpr hunique, if_pos hunique]
        simp [Criterion.selector]
      · rw [if_neg hunique]
        split
        -- a single element is left, and its reference alone is compared: it is the same element,
        -- since references are distinct
        · rename_i x hdeepest
          have hx : x ∈ s.elements :=
            (mem_deepestWithText_iff.mp (hdeepest ▸ List.mem_singleton_self x)).1
          refine if_neg fun href => hunique ?_
          obtain rfl := List.inj_on_of_nodup_map hrefs hx he (beq_iff_eq.mp href)
          exact (deepestWithText_eq_singleton_iff hrefs he).mp hdeepest
        · rfl
    · rfl

end

/-! ### Attributes -/

section

variable {s : Snapshot} {e : Element}

/-- **The attribute selectors of an element are its attribute tests**: in the same order, written in
the same way and passed by the same elements; and the element passes them all. -/
theorem attributeCandidates_forall₂ (e : Element) :
    List.Forall₂ (fun candidate test => candidate.1 = test.css ∧
        (∀ x, candidate.2 x = true ↔ test.Holds x) ∧ test.Holds e)
      (attributeCandidates e) e.attributeTests := by
  rw [attributeCandidates, Element.attributeTests]
  rcases hname : nonEmpty? (e.attribute? "name") with _ | name <;>
    rcases htype : nonEmpty? (e.attribute? "type") with _ | type <;>
    rcases hid : nonEmpty? (e.attribute? "id") with _ | id <;>
    simp_all [AttributeTest.css, AttributeTest.Holds, nonEmpty?_eq_some_iff, and_assoc]

theorem byAttributes_eq (hrefs : (s.elements.map Element.ref).Nodup) (he : e ∈ s.elements) :
    s.byAttributes e =
      (s.firstUnique s.IsChild e (e.attributeTests.map .attributes)).map Criterion.selector := by
  rw [byAttributes]
  have htests := attributeCandidates_forall₂ e
  generalize attributeCandidates e = candidates at htests ⊢
  generalize e.attributeTests = tests at htests ⊢
  induction htests with
  | nil => rfl
  | @cons candidate test candidates tests htest _ ih =>
    obtain ⟨hcss, hholds, hself⟩ := htest
    rw [List.map_cons, ← ite_hasOne hrefs he (c := .attributes test) hholds hself ih,
      List.find?_cons, Criterion.selector, ← hcss]
    cases s.hasOne candidate.2 <;> rfl

end

/-! ### All strategies -/

section

variable {s : Snapshot} {e : Element}

/-- **The selector of an element is that of its first criterion that singles it out**, or its
path. -/
theorem identify_eq (hrefs : (s.elements.map Element.ref).Nodup) (he : e ∈ s.elements)
    (key : String) :
    s.identify key e =
      ((s.firstUnique s.IsChild e (e.criteria key)).map Criterion.selector).getD (s.byPath e) := by
  rw [identify, byTestId_eq hrefs he, byRole_eq hrefs he, byLabel_eq hrefs he,
    byPlaceholder_eq hrefs he, byText_eq hrefs he, byAttributes_eq hrefs he, Element.criteria]
  simp only [firstUnique_append, Option.map_or, Option.or_assoc]
  simp only [Option.or_eq_orElse]
  rfl

/-! ### What lies below -/

/-- Where a text shows through, an element at which it shows and below which it does not is one of
whose children none shows it. -/
theorem matches_isBelow_iff {c : Criterion} {x : Element} (hx : x ∈ s.elements)
    (hshows : ∀ words, c = .text words → s.ShowsThrough words) :
    c.Matches s.IsBelow x ↔ c.Matches s.IsChild x := by
  cases c with
  | text words =>
    constructor
    · rintro ⟨hx, hbelow⟩
      exact ⟨hx, fun y hy => hbelow y (Relation.TransGen.single hy)⟩
    · rintro ⟨hwords, hchildren⟩
      refine ⟨hwords, fun y hy hfound => ?_⟩
      obtain ⟨z, hz, hshown⟩ := hshows words rfl x hx hwords y hy hfound
      exact hchildren z hz hshown
  | role kind words exact => cases exact <;> exact Iff.rfl
  | testId | label | placeholder | attributes => exact Iff.rfl

theorem singlesOut_isBelow_iff {c : Criterion} (he : e ∈ s.elements)
    (hshows : ∀ words, c = .text words → s.ShowsThrough words) :
    s.SinglesOut s.IsBelow c e ↔ s.SinglesOut s.IsChild c e := by
  rw [SinglesOut, SinglesOut, matches_isBelow_iff he hshows]
  exact and_congr_right fun _ => forall₂_congr fun x hx => by rw [matches_isBelow_iff hx hshows]

/-- The only text that an element is looked for by is its own. -/
theorem eq_of_text_mem_criteria {key words : String} (h : .text words ∈ e.criteria key) :
    words = Text.squeezed e.text := by
  simp only [Element.criteria, List.mem_append] at h
  rcases h with ((((h | h) | h) | h) | h) | h
  · simp [Element.testIdCriteria] at h
  · rw [Element.roleCriteria] at h
    split at h <;> simp at h
  · simp [Element.labelCriteria] at h
  · simp [Element.placeholderCriteria] at h
  · simp only [Element.textCriteria, List.mem_map, Option.mem_toList, Option.filter_eq_some_iff,
      nonEmpty?_eq_some_iff, Criterion.text.injEq] at h
    obtain ⟨found, ⟨⟨hfound, -⟩, -⟩, rfl⟩ := h
    exact (Option.some.inj hfound).symm
  · simp at h

end

/-! ### The selector -/

/-- **An element is identified in order of preference**, given what counts as deeper than an
element: a selector other than the path is that of a criterion which singles the element out while
none of those before it does, and the path is taken only if no criterion singles it out. -/
structure IdentifiesInOrder (s : Snapshot) (deeper : Element → Element → Prop) (key : String)
    (e : Element) : Prop where
  /-- A selector other than the path hits the element alone. -/
  unique : (s.identify key e).isStructural = false →
    ∃ before c after, e.criteria key = before ++ c :: after ∧ c.selector = s.identify key e ∧
      s.SinglesOut deeper c e ∧ ∀ d ∈ before, ¬ s.SinglesOut deeper d e
  /-- The path is the last resort. -/
  lastResort : (s.identify key e).isStructural = true →
    ∀ c ∈ e.criteria key, ¬ s.SinglesOut deeper c e

variable {s : Snapshot} {e : Element}

theorem isStructural_selector (c : Criterion) : c.selector.isStructural = false := by
  cases c <;> rfl

theorem identifiesInOrder_isChild (hrefs : (s.elements.map Element.ref).Nodup) (he : e ∈ s.elements)
    (key : String) : s.IdentifiesInOrder s.IsChild key e := by
  cases hfirst : s.firstUnique s.IsChild e (e.criteria key) with
  | none =>
    have hidentify : s.identify key e = s.byPath e := by rw [identify_eq hrefs he, hfirst]; rfl
    have hnone : ∀ c ∈ e.criteria key, ¬ s.SinglesOut s.IsChild c e := by
      simpa [firstUnique] using hfirst
    exact ⟨fun h => by simp [hidentify, byPath, Selector.isStructural] at h, fun _ => hnone⟩
  | some c =>
    have hidentify : s.identify key e = c.selector := by rw [identify_eq hrefs he, hfirst]; rfl
    obtain ⟨hunique, before, after, hcriteria, hbefore⟩ :=
      List.find?_eq_some_iff_append.mp hfirst
    refine ⟨fun _ => ⟨before, c, after, hcriteria, hidentify.symm, by simpa using hunique,
      fun d hd => ?_⟩, fun h => ?_⟩
    · simpa using hbefore d hd
    · rw [hidentify, isStructural_selector] at h
      exact absurd h (by decide)

theorem IdentifiesInOrder.congr {deeper deeper' : Element → Element → Prop} {key : String}
    (h : s.IdentifiesInOrder deeper key e)
    (hiff : ∀ c ∈ e.criteria key, s.SinglesOut deeper' c e ↔ s.SinglesOut deeper c e) :
    s.IdentifiesInOrder deeper' key e := by
  refine ⟨fun hpath => ?_, fun hpath c hc => (hiff c hc).not.mpr (h.lastResort hpath c hc)⟩
  obtain ⟨before, c, after, hcriteria, hselector, hunique, hbefore⟩ := h.unique hpath
  have hmem : ∀ d ∈ before ++ c :: after, s.SinglesOut deeper' d e ↔ s.SinglesOut deeper d e :=
    hcriteria ▸ hiff
  refine ⟨before, c, after, hcriteria, hselector, (hmem c (by simp)).mpr hunique, fun d hd => ?_⟩
  exact (hmem d (by simp [hd])).not.mpr (hbefore d hd)

/-- **Selectors hit the element they were made for, and no other one.** With the children of an
element taken for what is deeper, this holds in every snapshot whose references are distinct. With
all that lies below an element taken for it, it holds if the text of the element shows through. -/
theorem identify_singlesOut (hrefs : (s.elements.map Element.ref).Nodup) (he : e ∈ s.elements)
    (key : String) :
    s.IdentifiesInOrder s.IsChild key e ∧
      (s.ShowsThrough (Text.squeezed e.text) → s.IdentifiesInOrder s.IsBelow key e) := by
  have hchild := identifiesInOrder_isChild hrefs he key
  refine ⟨hchild, fun hshows => hchild.congr fun c hc => singlesOut_isBelow_iff he ?_⟩
  rintro words rfl
  rw [eq_of_text_mem_criteria hc]
  exact hshows

/-! ### Two elements with one text -/

/-- Nothing lies below an element that no element names as its parent. -/
theorem not_isBelow {x : Element} (h : ∀ z ∈ s.elements, z.parent ≠ some x.ref) (y : Element) :
    ¬ s.IsBelow x y := by
  intro hbelow
  obtain ⟨z, ⟨hz, hparent⟩, -⟩ := Relation.TransGen.head'_iff.mp hbelow
  exact h z hz hparent

/-- An element at the top of a page. -/
def outerElement : Element := { ref := "a", tag := "div", text := "Go" }

/-- An element in it that shows no text. -/
def blankElement : Element := { ref := "b", tag := "div", parent := some "a" }

/-- An element that shows the text of the first one. -/
def innerElement (parent : String) : Element :=
  { ref := "c", tag := "div", parent := some parent, text := "Go" }

/-- The text shows at an element and at a child of it. -/
def nestedPage : Snapshot := { elements := [outerElement, innerElement "a"] }

/-- The text shows at an element and at a child of a child, but not in between. -/
def gappedPage : Snapshot := { elements := [outerElement, blankElement, innerElement "b"] }

/-- In the first page the text shows through, and the inner element is found by it. -/
theorem identify_singlesOut_nestedPage :
    (nestedPage.elements.map Element.ref).Nodup ∧ innerElement "a" ∈ nestedPage.elements ∧
      nestedPage.ShowsThrough "Go" ∧
      nestedPage.IdentifiesInOrder nestedPage.IsBelow "data-testid" (innerElement "a") := by
  have hrefs : (nestedPage.elements.map Element.ref).Nodup := by decide
  have hinner : innerElement "a" ∈ nestedPage.elements := by decide
  have hshows : nestedPage.ShowsThrough "Go" := by
    intro x hx _ y hy _
    rcases List.mem_pair.mp hx with rfl | rfl
    · exact ⟨innerElement "a", ⟨hinner, rfl⟩, by decide⟩
    · exact absurd hy (not_isBelow (by decide) y)
  exact ⟨hrefs, hinner, hshows, (identify_singlesOut hrefs hinner "data-testid").2 hshows⟩

/-- **In the second page the inner element is the deepest with its text, and the path is taken all
the same**: the element in between hides the inner one from the outer one. -/
theorem not_identifiesInOrder_gappedPage :
    (gappedPage.elements.map Element.ref).Nodup ∧ innerElement "b" ∈ gappedPage.elements ∧
      ¬ gappedPage.IdentifiesInOrder gappedPage.IsBelow "data-testid" (innerElement "b") := by
  have hinner : innerElement "b" ∈ gappedPage.elements := by decide
  refine ⟨by decide, hinner, fun h => ?_⟩
  have hpath : (gappedPage.identify "data-testid" (innerElement "b")).isStructural = true := by
    decide +kernel
  have hcriterion : Criterion.text "Go" ∈ (innerElement "b").criteria "data-testid" := by
    decide +kernel
  refine h.lastResort hpath _ hcriterion ⟨⟨by decide, fun y hy => ?_⟩, ?_⟩
  · exact absurd hy (not_isBelow (by decide) y)
  · intro x hx hmatches
    simp only [gappedPage, List.mem_cons, List.not_mem_nil, or_false] at hx
    rcases hx with rfl | rfl | rfl
    · have hbelow : gappedPage.IsBelow outerElement (innerElement "b") :=
        Relation.TransGen.head (b := blankElement) ⟨by decide, rfl⟩
          (Relation.TransGen.single ⟨hinner, rfl⟩)
      exact absurd (by decide) (hmatches.2 _ hbelow)
    · exact absurd hmatches.1 (by decide)
    · rfl

end Snapshot

end Scribe
