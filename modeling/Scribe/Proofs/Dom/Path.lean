import Scribe.Proofs.Css.Selector
import Scribe.Proofs.Dom.Identify

/-!
# Structural paths

**The path of an element, read as CSS, leads to the element and to no other one**, on every page of
the kind that is recorded (`Scribe.Snapshot.IsPage`).

The path is written from an element upwards, and read from the top downwards, from any element that
the first step fits. What makes it exact is the first step: it fits the root alone. From there on
each step is taken to one child, since it gives the position among the siblings of its tag wherever
there are several (`Scribe.Snapshot.step_holds_iff`). The lineage of an element ends at the root
(`Scribe.Snapshot.IsAncestry`), and along it the steps are put together
(`Scribe.Snapshot.IsAncestry.holds_iff`).
-/

namespace Scribe

/-! ### Pages -/

/-- Whether a text is the name of a tag: an ASCII letter, and letters, digits and dashes. -/
def isTagName : List Char → Bool
  | [] => false
  | c :: rest => c.isAlpha && rest.all fun d => d.isAlphanum || d == '-'

namespace Snapshot

/-- **A page as it is recorded.** -/
structure IsPage (s : Snapshot) : Prop where
  /-- References are distinct. -/
  refs : (s.elements.map Element.ref).Nodup
  /-- The root has its tag for itself. -/
  root : ∃ root ∈ s.elements, root.tag = "html" ∧ root.parent = none ∧
    ∀ x ∈ s.elements, x.tag = "html" → x = root
  /-- The parent of any other element stands before it. -/
  parents : ∀ before x after, s.elements = before ++ x :: after → x.tag ≠ "html" →
    ∃ p ∈ before, x.parent = some p.ref
  /-- Tags are written as names. -/
  tags : ∀ x ∈ s.elements, isTagName x.tag.toList = true

variable {s : Snapshot}

/-! ### Positions -/

/-- The siblings of an element that have its tag, and the element itself. -/
def siblings (s : Snapshot) (e : Element) : List Element :=
  (s.children e.parent).filter (·.tag == e.tag)

theorem mem_siblings_iff {x e : Element} :
    x ∈ s.siblings e ↔ x ∈ s.elements ∧ x.parent = e.parent ∧ x.tag = e.tag := by
  simp only [siblings, children, List.mem_filter, beq_iff_eq, and_assoc]

/-- Siblings have the same siblings. -/
theorem siblings_eq {x e : Element} (hparent : x.parent = e.parent) (htag : x.tag = e.tag) :
    s.siblings x = s.siblings e := by
  rw [siblings, siblings, hparent, htag]

/-- **The position of an element** is the one that it has in the list of its siblings. -/
theorem isNthOfType_iff (hnodup : s.elements.Nodup) {x : Element} (hx : x ∈ s.elements) {n : ℕ} :
    s.IsNthOfType n x ↔ (s.siblings x).idxOf x + 1 = n := by
  have hcount {before after : List Element} (hsplit : s.elements = before ++ x :: after) :
      (before.countP fun y => y.parent == x.parent && y.tag == x.tag) =
        (s.siblings x).idxOf x := by
    have hbefore : x ∉ before := by
      rw [hsplit] at hnodup
      exact fun hmem => (List.nodup_append.mp hnodup).2.2 x hmem x List.mem_cons_self rfl
    have hsiblings : s.siblings x =
        (before.filter fun y => y.parent == x.parent && y.tag == x.tag) ++
          x :: (after.filter fun y => y.parent == x.parent && y.tag == x.tag) := by
      rw [siblings, children, hsplit, List.filter_filter]
      simp [Bool.and_comm]
    rw [hsiblings, List.idxOf_append_of_notMem (mt List.mem_of_mem_filter hbefore),
      List.idxOf_cons_self, List.countP_eq_length_filter, Nat.add_zero]
  constructor
  · rintro ⟨before, after, hsplit, rfl⟩
    rw [hcount hsplit]
  · rintro rfl
    obtain ⟨before, after, hsplit⟩ := List.append_of_mem hx
    exact ⟨before, after, hsplit, by rw [hcount hsplit]⟩

/-! ### Steps -/

/-- What a step of a path asks for: the tag, and the position where there are several siblings. -/
def step (s : Snapshot) (e : Element) : Css.Compound where
  type := some e.tag
  tests := if (s.siblings e).length > 1 then [.nthOfType ((s.siblings e).idxOf e + 1)] else []

/-- **A step tells an element from its siblings.** -/
theorem step_holds_iff (hnodup : s.elements.Nodup) {x e : Element} (hx : x ∈ s.elements)
    (he : e ∈ s.elements) (hparent : x.parent = e.parent) : (s.step e).Holds s x ↔ x = e := by
  constructor
  · rintro ⟨htag, htests⟩
    have hsiblings := siblings_eq (s := s) hparent (htag e.tag rfl)
    have hxs : x ∈ s.siblings e := mem_siblings_iff.mpr ⟨hx, hparent, htag e.tag rfl⟩
    have hes : e ∈ s.siblings e := mem_siblings_iff.mpr ⟨he, rfl, rfl⟩
    by_cases hmany : (s.siblings e).length > 1
    · rw [step, if_pos hmany] at htests
      have hposition := (isNthOfType_iff hnodup hx).mp (htests _ List.mem_cons_self)
      rw [hsiblings] at hposition
      exact (List.idxOf_inj hxs).mp (Nat.succ.inj hposition)
    · obtain ⟨a, ha⟩ := List.length_eq_one_iff.mp
        (Nat.le_antisymm (Nat.le_of_not_lt hmany) (List.length_pos_of_mem hes))
      rw [ha, List.mem_singleton] at hxs hes
      exact hxs.trans hes.symm
  · rintro rfl
    refine ⟨fun tag htag => Option.some.inj htag, fun t ht => ?_⟩
    rw [step] at ht
    split at ht
    · rw [List.mem_singleton.mp ht]
      exact (isNthOfType_iff hnodup hx).mpr rfl
    · cases ht

/-! ### The way to the root -/

/-- **The ancestry of an element**: its parent, the parent of that and so on, up to the root. -/
inductive IsAncestry (s : Snapshot) : Element → List Element → Prop where
  /-- Nothing lies above the root. -/
  | root {e : Element} (htag : e.tag = "html") (hparent : e.parent = none) : IsAncestry s e []
  /-- Above any other element lies its parent. -/
  | child {p e : Element} {above : List Element} (hp : p ∈ s.elements)
    (hparent : e.parent = some p.ref) (hpath : IsAncestry s p above) : IsAncestry s e (p :: above)

section

variable (hrefs : (s.elements.map Element.ref).Nodup)

include hrefs

/-- A reference leads to the element that has it. -/
theorem get?_ref {e : Element} (he : e ∈ s.elements) : s.get? e.ref = some e := by
  have hnodup : (s.elements.filter (·.ref == e.ref)).Nodup := (List.Nodup.of_map _ hrefs).filter _
  have hsingle : s.elements.filter (·.ref == e.ref) = [e] := by
    refine (eq_singleton_iff hnodup).mpr ⟨List.mem_filter.mpr ⟨he, beq_self_eq_true _⟩, ?_⟩
    intro x hx
    obtain ⟨hx, href⟩ := List.mem_filter.mp hx
    exact List.inj_on_of_nodup_map hrefs hx he (beq_iff_eq.mp href)
  rw [get?, hsingle]
  rfl

theorem lineage_ref {e : Element} (he : e ∈ s.elements) {seen : List String}
    (hseen : e.ref ∉ seen) :
    s.lineage seen (some e.ref) = e :: s.lineage (e.ref :: seen) e.parent := by
  have hcontains : seen.contains e.ref = false := by simpa using hseen
  rw [lineage]
  split
  · next hnone =>
    rw [get?_ref hrefs he] at hnone
    cases hnone
  · next found hfound =>
    rw [get?_ref hrefs he] at hfound
    obtain rfl := Option.some.inj hfound
    rw [dif_neg (by simpa using hseen)]

end

theorem lineage_none (seen : List String) : s.lineage seen none = [] := by
  rw [lineage]

/-- **The lineage of an element is the element and its ancestry.** What was seen before lies below
it. -/
theorem IsPage.lineage_eq (h : s.IsPage) {before after : List Element} {e : Element}
    (hsplit : s.elements = before ++ e :: after) {seen : List String}
    (hseen : ∀ x ∈ before ++ [e], x.ref ∉ seen) :
    ∃ above, s.IsAncestry e above ∧ s.lineage seen (some e.ref) = e :: above := by
  -- parents stand before their children, so the induction is on what stands before the element
  induction hlength : before.length using Nat.strong_induction_on
    generalizing before e after seen with
  | _ n ih =>
    have he : e ∈ s.elements := by simp [hsplit]
    have hlineage := lineage_ref h.refs he (hseen e (by simp))
    by_cases htag : e.tag = "html"
    · obtain ⟨root, -, -, hparent, honly⟩ := h.root
      rw [← honly e he htag] at hparent
      rw [hparent, lineage_none] at hlineage
      exact ⟨[], .root htag hparent, hlineage⟩
    · obtain ⟨p, hp, hparent⟩ := h.parents before e after hsplit htag
      obtain ⟨front, back, rfl⟩ := List.append_of_mem hp
      have hrefs := h.refs
      have hfront : s.elements = front ++ p :: (back ++ e :: after) := by simp [hsplit]
      have hnew : ∀ x ∈ front ++ [p], x.ref ∉ e.ref :: seen := by
        intro x hx
        have hbefore : x ∈ front ++ p :: back := by
          rcases List.mem_append.mp hx with hx | hx
          · exact List.mem_append_left _ hx
          · rw [List.mem_singleton.mp hx]
            exact hp
        have hne : x.ref ≠ e.ref := by
          rw [hsplit, List.map_append, List.map_cons] at hrefs
          have hdisjoint := (List.nodup_append.mp hrefs).2.2
          exact hdisjoint _ (List.mem_map_of_mem hbefore) _ List.mem_cons_self
        rw [List.mem_cons, not_or]
        exact ⟨hne, hseen x (List.mem_append_left _ hbefore)⟩
      obtain ⟨above, habove, hpath⟩ := ih front.length (by simp [← hlength]) hfront hnew rfl
      rw [hparent, hpath] at hlineage
      exact ⟨p :: above, .child (by simp [hfront]) hparent habove, hlineage⟩

/-- **The steps to an element fit it alone.** -/
theorem IsAncestry.holds_iff (hpage : s.IsPage) {e : Element} {above : List Element}
    (h : s.IsAncestry e above) (he : e ∈ s.elements) {x : Element} (hx : x ∈ s.elements) :
    (s.step e).Holds s x ∧ Css.HasParents s (above.map s.step) x ↔ x = e := by
  have hnodup : s.elements.Nodup := List.Nodup.of_map _ hpage.refs
  induction h generalizing x with
  | @root e htag hparent =>
    obtain ⟨root, -, -, -, honly⟩ := hpage.root
    constructor
    · rintro ⟨⟨hx', -⟩, -⟩
      rw [honly x hx ((hx' e.tag rfl).trans htag), honly e he htag]
    · rintro rfl
      exact ⟨(step_holds_iff hnodup hx he rfl).mpr rfl, trivial⟩
  | @child p e above hp hparent hpath ih =>
    -- what lies above fits the parent alone, so only children of it are left
    have habove : Css.HasParents s ((p :: above).map s.step) x ↔ s.IsChild p x := by
      constructor
      · rintro ⟨y, hy, hchild, hholds⟩
        rwa [(ih hp hy).mp hholds] at hchild
      · intro hchild
        exact ⟨p, hp, hchild, (ih hp hp).mpr rfl⟩
    rw [habove]
    constructor
    · rintro ⟨hholds, -, hchild⟩
      exact (step_holds_iff hnodup hx he (hchild.trans hparent.symm)).mp hholds
    · rintro rfl
      exact ⟨(step_holds_iff hnodup hx he rfl).mpr rfl, hx, hparent⟩

/-! ### Paths as they are written -/

/-- The tokens of a step. -/
def stepTokens (s : Snapshot) (e : Element) : List Css.Token :=
  .ident e.tag ::
    if (s.siblings e).length > 1 then
      [.mark ':', .function "nth-of-type", .number ((s.siblings e).idxOf e + 1), .mark ')']
    else []

/-- What is written behind the tag. -/
def positionText (s : Snapshot) (e : Element) : List Char :=
  if (s.siblings e).length > 1 then
    ':' :: ("nth-of-type".toList ++ '(' ::
      (Nat.toDigits 10 ((s.siblings e).idxOf e + 1) ++ ')' :: []))
  else []

theorem toList_pathStep (e : Element) :
    (s.pathStep e).toList = e.tag.toList ++ s.positionText e := by
  have hstep : s.pathStep e = if (s.siblings e).length > 1 then
      e.tag ++ ":nth-of-type(" ++ toString ((s.siblings e).idxOf e + 1) ++ ")" else e.tag := rfl
  rw [hstep, positionText]
  split
  · simp [toString, Nat.repr]
  · simp

/-- **A step is read** as it was meant, whatever follows behind a blank. -/
theorem lex_pathStep {e : Element} (htag : Css.IsIdent e.tag.toList) {rest : List Char}
    (hrest : ∀ c ∈ rest.head?, c = ' ') :
    Css.lex ((s.pathStep e).toList ++ rest) = (Css.lex rest).map (s.stepTokens e ++ ·) := by
  have hname : Css.IsIdent "nth-of-type".toList := by decide
  have hbreak : ∀ c ∈ (s.positionText e ++ rest).head?, c = ':' ∨ c = ' ' := by
    intro c hc
    rw [positionText] at hc
    split at hc
    · exact .inl (Option.some.inj hc).symm
    · exact .inr (hrest c hc)
  have hend : Css.IsBreak (s.positionText e ++ rest) := by
    intro c hc
    rcases hbreak c hc with rfl | rfl <;> decide
  have hbracket : (s.positionText e ++ rest).head? ≠ some '(' := by
    intro hhead
    rcases hbreak _ hhead with h | h <;> exact absurd h (by decide)
  rw [toList_pathStep, List.append_assoc, Css.lex_ident htag hend hbracket, String.ofList_toList,
    positionText, stepTokens]
  split
  · simp only [List.cons_append, List.append_assoc, List.nil_append]
    rw [Css.lex_mark (by decide), Css.lex_function hname, Css.lex_number, Css.lex_mark (by decide),
      String.ofList_toList]
    cases Css.lex rest <;> rfl
  · rfl

/-- A path begins with a tag. -/
theorem isBlank_head_path {e : Element} (he : Css.IsIdent e.tag.toList) (steps : List Element) :
    ∀ c ∈ (" > ".toList.intercalate ((e :: steps).map (String.toList ∘ s.pathStep))).head?,
      Css.isBlank c = false := by
  have hbegin : ∃ rest, " > ".toList.intercalate ((e :: steps).map (String.toList ∘ s.pathStep)) =
      e.tag.toList ++ rest := by
    cases steps with
    | nil => exact ⟨s.positionText e, by simp [toList_pathStep]⟩
    | cons next steps =>
      rw [List.map_cons, List.map_cons, List.intercalate_cons_cons, Function.comp_apply,
        toList_pathStep]
      simp only [List.append_assoc]
      exact ⟨_, rfl⟩
  obtain ⟨rest, hrest⟩ := hbegin
  intro c hc
  rw [hrest] at hc
  cases htag : e.tag.toList with
  | nil =>
    rw [htag] at he
    exact absurd he.starts (by decide)
  | cons d tag =>
    rw [htag] at hc he
    obtain rfl := Option.some.inj hc
    exact Css.isBlank_of_isNameChar (he.plain _ List.mem_cons_self)

/-- **A path is read** step by step. -/
theorem lex_path {steps : List Element} (h : ∀ e ∈ steps, Css.IsIdent e.tag.toList) :
    Css.lex (" > ".intercalate (steps.map s.pathStep)).toList =
      some (Css.childTokens.intercalate (steps.map s.stepTokens)) := by
  rw [String.toList_intercalate, List.map_map]
  induction steps with
  | nil => simp [Css.lex]
  | cons e steps ih =>
    obtain ⟨he, hsteps⟩ := List.forall_mem_cons.mp h
    cases steps with
    | nil =>
      have hstep : Css.lex ((s.pathStep e).toList ++ []) =
          (Css.lex []).map (s.stepTokens e ++ ·) := lex_pathStep he (by simp)
      rw [List.append_nil, Css.lex] at hstep
      simpa using hstep
    | cons next steps =>
      have hnext := isBlank_head_path (s := s) (hsteps next List.mem_cons_self) steps
      have hread := ih hsteps
      simp only [List.map_cons, List.intercalate_cons_cons, Function.comp_apply] at hread hnext ⊢
      generalize " > ".toList.intercalate _ = path at hread hnext ⊢
      have hjoin : " > ".toList ++ path = ' ' :: '>' :: ' ' :: path := rfl
      have hmark : ∀ c ∈ ('>' :: ' ' :: path).head?, Css.isBlank c = false := by
        rintro c ⟨⟩
        rfl
      rw [List.append_assoc, hjoin, lex_pathStep he (by simp), Css.lex_blank rfl hmark,
        Css.lex_mark (by decide), Css.lex_blank rfl hnext, hread]
      simp [Css.childTokens]

theorem mem_intercalate {α : Type} {between : List α} {items : List (List α)} {a : α}
    (h : a ∈ between.intercalate items) : a ∈ between ∨ ∃ item ∈ items, a ∈ item := by
  induction items with
  | nil => simp at h
  | cons item items ih =>
    cases items with
    | nil => exact .inr ⟨item, by simp, by simpa using h⟩
    | cons next items =>
      rw [List.intercalate_cons_cons, List.append_assoc, List.mem_append, List.mem_append] at h
      rcases h with h | h | h
      · exact .inr ⟨item, List.mem_cons_self, h⟩
      · exact .inl h
      · refine (ih h).imp id ?_
        rintro ⟨found, hfound, ha⟩
        exact ⟨found, List.mem_cons_of_mem item hfound, ha⟩

/-- **A path is taken in as it is.** -/
theorem taken_path {steps : List Element} (h : ∀ e ∈ steps, Css.IsIdent e.tag.toList) :
    Css.taken (" > ".intercalate (steps.map s.pathStep)).toList =
      (" > ".intercalate (steps.map s.pathStep)).toList := by
  have hposition (e : Element) : ∀ c ∈ s.positionText e, Css.takenChar c = c := by
    have hname : ∀ c ∈ "nth-of-type".toList, Css.isNameChar c = true := by
      have hident : Css.IsIdent "nth-of-type".toList := by decide
      exact hident.plain
    intro c hc
    rw [positionText] at hc
    split at hc
    · rcases List.mem_cons.mp hc with rfl | hc
      · decide
      rcases List.mem_append.mp hc with hc | hc
      · exact Css.takenChar_of_isNameChar (hname c hc)
      rcases List.mem_cons.mp hc with rfl | hc
      · decide
      rcases List.mem_append.mp hc with hc | hc
      · have hdigit := Nat.isDigit_of_mem_toDigits (by decide) (by decide) hc
        exact Css.takenChar_of_isNameChar (by simp [Css.isNameChar, hdigit])
      · rw [List.mem_singleton.mp hc]
        decide
    · cases hc
  have hstep : ∀ e ∈ steps, ∀ c ∈ (s.pathStep e).toList, Css.takenChar c = c := by
    intro e he c hc
    rw [toList_pathStep] at hc
    rcases List.mem_append.mp hc with hc | hc
    · exact Css.takenChar_of_isNameChar ((h e he).plain c hc)
    · exact hposition e c hc
  refine Css.taken_eq_self fun c hc => ?_
  rw [String.toList_intercalate] at hc
  rcases mem_intercalate hc with hc | ⟨text, htext, hc⟩
  · have hjoin : ∀ c ∈ " > ".toList, Css.takenChar c = c := by simp [Css.takenChar]
    exact hjoin c hc
  · obtain ⟨_, hmem, rfl⟩ := List.mem_map.mp htext
    obtain ⟨e, he, rfl⟩ := List.mem_map.mp hmem
    exact hstep e he c hc

/-- The tokens of a step are read as what it asks for. -/
theorem readCompound_stepTokens (e : Element) :
    Css.readCompound (s.stepTokens e) = some (s.step e) := by
  rw [stepTokens, step]
  split <;> rfl

theorem stepTokens_plain (e : Element) :
    ∀ t ∈ s.stepTokens e, t ≠ .blank ∧ t ≠ .mark '>' := by
  rw [stepTokens]
  split <;> simp

/-! ### Paths lead to their elements -/

theorem IsAncestry.mem {e : Element} {above : List Element} (h : s.IsAncestry e above) :
    ∀ x ∈ above, x ∈ s.elements := by
  induction h with
  | root => simp
  | child hp _ _ ih => exact List.forall_mem_cons.mpr ⟨hp, ih⟩

theorem isIdent_of_isTagName {tag : List Char} (h : isTagName tag = true) : Css.IsIdent tag := by
  cases tag with
  | nil => cases h
  | cons c rest =>
    simp only [isTagName, Bool.and_eq_true, List.all_eq_true] at h
    have hstart : Css.isNameStart c = true := by simp [Css.isNameStart, h.1]
    refine Css.isIdent_cons hstart fun d hd => ?_
    have hd := h.2 d hd
    simp only [Char.isAlphanum, Bool.or_eq_true] at hd
    simp only [Css.isNameChar, Css.isNameStart, Bool.or_eq_true]
    tauto

/-- **The structural path of an element, read as CSS, matches the element and no other one.** -/
theorem structuralPath_matches (h : s.IsPage) {e : Element} (he : e ∈ s.elements) :
    ∃ path sel, s.structuralPath? e.ref = some path ∧ Css.read path = some sel ∧
      ∀ x ∈ s.elements, sel.Matches s x ↔ x = e := by
  obtain ⟨before, after, hsplit⟩ := List.append_of_mem he
  have hseen : ∀ x ∈ before ++ [e], x.ref ∉ ([] : List String) := by simp
  obtain ⟨above, habove, hlineage⟩ := h.lineage_eq hsplit hseen
  have hsteps : ∀ x ∈ (e :: above).reverse, Css.IsIdent x.tag.toList := by
    intro x hx
    have hmem : x ∈ s.elements := by
      rcases List.mem_cons.mp (List.mem_reverse.mp hx) with rfl | hx
      · exact he
      · exact habove.mem x hx
    exact isIdent_of_isTagName (h.tags x hmem)
  have hcontains : s.contains e.ref = true := List.any_eq_true.mpr ⟨e, he, beq_self_eq_true _⟩
  refine ⟨" > ".intercalate ((e :: above).reverse.map s.pathStep),
    ⟨s.step e, above.map s.step⟩, ?_, ?_, fun x hx => habove.holds_iff h he hx⟩
  · rw [structuralPath?, if_pos hcontains, hlineage, List.map_reverse]
  · have hread : List.Forall₂ (fun piece c => Css.readCompound piece = some c)
        ((e :: above).reverse.map s.stepTokens) ((e :: above).reverse.map s.step) := by
      rw [List.forall₂_map_left_iff, List.forall₂_map_right_iff, List.forall₂_same]
      exact fun x _ => readCompound_stepTokens x
    rw [Css.read, taken_path hsteps, lex_path hsteps, Option.bind_some]
    refine Css.readSelector_intercalate ?_ hread ?_
    · intro piece hpiece
      obtain ⟨x, -, rfl⟩ := List.mem_map.mp hpiece
      exact stepTokens_plain x
    · rw [← List.map_reverse, List.reverse_reverse]
      rfl

/-- An element of the page below. -/
def plainElement (ref tag : String) (parent : Option String) : Element :=
  { ref := ref, tag := tag, parent := parent }

/-- A page with two paragraphs. -/
def twoParagraphs : Snapshot where
  elements := [plainElement "e1" "html" none, plainElement "e2" "body" (some "e1"),
    plainElement "e3" "p" (some "e2"), plainElement "e4" "p" (some "e2")]

theorem isPage_twoParagraphs : twoParagraphs.IsPage where
  refs := by decide
  root := ⟨plainElement "e1" "html" none, by decide, rfl, rfl, by decide⟩
  parents := by
    intro before x after hsplit htag
    rcases before with _ | ⟨a, _ | ⟨b, _ | ⟨c, _ | ⟨d, before⟩⟩⟩⟩
    · cases hsplit
      exact absurd rfl htag
    · cases hsplit
      exact ⟨plainElement "e1" "html" none, by decide, rfl⟩
    · cases hsplit
      exact ⟨plainElement "e2" "body" (some "e1"), by decide, rfl⟩
    · cases hsplit
      exact ⟨plainElement "e2" "body" (some "e1"), by decide, rfl⟩
    · exact absurd (congrArg List.length hsplit) (by simp [twoParagraphs])
  tags := by decide

theorem structuralPath_matches_paragraph :
    twoParagraphs.IsPage ∧ plainElement "e4" "p" (some "e2") ∈ twoParagraphs.elements ∧
      ∃ path sel, twoParagraphs.structuralPath? "e4" = some path ∧ Css.read path = some sel ∧
        ∀ x ∈ twoParagraphs.elements,
          sel.Matches twoParagraphs x ↔ x = plainElement "e4" "p" (some "e2") := by
  have hmem : plainElement "e4" "p" (some "e2") ∈ twoParagraphs.elements := by decide
  exact ⟨isPage_twoParagraphs, hmem, structuralPath_matches isPage_twoParagraphs hmem⟩

example : twoParagraphs.structuralPath? "e4" = some "html > body > p:nth-of-type(2)" := by
  decide +kernel

end Snapshot

end Scribe
