import Scribe.Proofs.Css.Spelling
import Scribe.Proofs.Dom.Identify

/-!
# Attribute selectors, read as CSS

**When an attribute selector asks for what was counted.** Elements are counted by their tag and by
the values of their attributes, and the selector says the same in CSS. How it is read is worked out
by its parts: the values in double quotes (`Scribe.Css.readString_cssEscape`), the attribute tests
one after the other (`Scribe.Css.read_attributes`), and the identifiers after a number sign
(`Scribe.Css.read_number_sign`).

What is asked for is what was counted if the selector can be written
(`Scribe.AttributeTest.IsWritable`), and only then (`Scribe.Snapshot.attributeCandidates_denote`):

* its type is a name;
* the values in quotes are free of the characters that are replaced when a text is taken in;
* an identifier after a number sign does not end in a line feed.
-/

namespace Scribe

namespace Css

/-! ### Values in double quotes -/

/-- **What the text of a value is read as** between double quotes: a null is replaced, and where a
carriage return or a form feed stands, the line ends before the string does. -/
def readBack? : List Char → Option (List Char)
  | [] => some []
  | c :: rest =>
    if c = '\r' ∨ c = '\x0c' then none else (readBack? rest).map (takenChar c :: ·)

/-- What the text of a value is read as, if it is read at all. -/
def readValue? (value : String) : Option String :=
  (readBack? value.toList).map String.ofList

/-- **A value that can be written** between double quotes. -/
def IsWritable (value : String) : Prop :=
  ∀ c ∈ value.toList, c ≠ '\r' ∧ c ≠ '\x0c' ∧ c ≠ '\x00'

theorem readBack?_eq_self_iff {value : List Char} :
    readBack? value = some value ↔ ∀ c ∈ value, c ≠ '\r' ∧ c ≠ '\x0c' ∧ c ≠ '\x00' := by
  induction value with
  | nil => simp [readBack?]
  | cons c rest ih =>
    have htaken : ¬(c = '\r' ∨ c = '\x0c') → (takenChar c = c ↔ c ≠ '\x00') := by
      intro hne
      rw [takenChar, if_neg hne]
      by_cases hnull : c = '\x00'
      · simp [hnull]
      · simp [hnull]
    rw [readBack?, List.forall_mem_cons, ← ih]
    split
    · next hend => grind
    · next hne =>
      simp only [Option.map_eq_some_iff, List.cons.injEq, htaken hne]
      grind

theorem readValue?_eq_self_iff {value : String} :
    readValue? value = some value ↔ IsWritable value := by
  rw [IsWritable, ← readBack?_eq_self_iff, readValue?, Option.map_eq_some_iff]
  constructor
  · rintro ⟨found, hfound, rfl⟩
    rwa [String.toList_ofList] at hfound ⊢
  · intro h
    exact ⟨value.toList, h, String.ofList_toList⟩

/-- An escape in a string. -/
theorem readString_backslash {c : Char} {rest after : List Char} {d : Char} (hc : c ≠ '\n')
    (h : readEscape (c :: rest) = (d, after)) :
    readString '"' ('\\' :: c :: rest) = (readString '"' after).map fun r => (d :: r.1, r.2) := by
  have hhead : (c :: rest).head? ≠ some '\n' := by simpa using hc
  rw [readString, if_neg (by decide), if_neg (by decide), if_pos rfl, if_neg hhead, h]

theorem readEscape_lineFeed (rest : List Char) :
    readEscape ('a' :: ' ' :: rest) = ('\n', rest) := by
  have hnumber : Text.leadingNumber 16 6 ('a' :: ' ' :: rest) = (10, 1) := by
    have hdigits : (('a' :: ' ' :: rest).take 6).takeWhile
        (fun c => (Text.digitIn? 16 c).isSome) = ['a'] := rfl
    rw [Text.leadingNumber, hdigits]
    rfl
  rw [readEscape, hnumber]
  rfl

/-- **The text of a value is read back** up to the closing quote. -/
theorem readString_cssEscape (value rest : List Char) :
    readString '"' ((value.flatMap Snapshot.cssEscape).map takenChar ++ '"' :: rest) =
      (readBack? value).map (·, rest) := by
  induction value with
  | nil =>
    rw [List.flatMap_nil, List.map_nil, List.nil_append, readString, if_pos rfl]
    rfl
  | cons c value ih =>
    rw [List.flatMap_cons, List.map_append, List.append_assoc, readBack?]
    -- what is escaped, what ends the line, and what stands for itself
    by_cases hslash : c = '\\'
    · subst hslash
      have hescape : (Snapshot.cssEscape '\\').map takenChar = ['\\', '\\'] := by decide
      rw [hescape, List.cons_append, List.cons_append, List.nil_append,
        readString_backslash (by decide) (readEscape_of_not_hex (by decide) _), ih,
        if_neg (by decide)]
      cases readBack? value <;> rfl
    by_cases hquote : c = '"'
    · subst hquote
      have hescape : (Snapshot.cssEscape '"').map takenChar = ['\\', '"'] := by decide
      rw [hescape, List.cons_append, List.cons_append, List.nil_append,
        readString_backslash (by decide) (readEscape_of_not_hex (by decide) _), ih,
        if_neg (by decide)]
      cases readBack? value <;> rfl
    by_cases hfeed : c = '\n'
    · subst hfeed
      have hescape : (Snapshot.cssEscape '\n').map takenChar = ['\\', 'a', ' '] := by decide
      rw [hescape, List.cons_append, List.cons_append, List.cons_append, List.nil_append,
        readString_backslash (by decide) (readEscape_lineFeed _), ih, if_neg (by decide)]
      cases readBack? value <;> rfl
    have hescape : (Snapshot.cssEscape c).map takenChar = [takenChar c] := by
      simp [Snapshot.cssEscape, hslash, hquote, hfeed]
    rw [hescape, List.singleton_append]
    by_cases hend : c = '\r' ∨ c = '\x0c'
    · have htaken : takenChar c = '\n' := by rw [takenChar, if_pos hend]
      rw [htaken, if_pos hend, readString, if_neg (by decide), if_pos rfl]
      rfl
    · have htaken : takenChar c ≠ '"' ∧ takenChar c ≠ '\n' ∧ takenChar c ≠ '\\' := by
        rw [takenChar, if_neg hend]
        split
        · decide
        · exact ⟨hquote, hfeed, hslash⟩
      rw [readString, if_neg htaken.1, if_neg htaken.2.1, if_neg htaken.2.2, ih, if_neg hend]
      cases readBack? value <;> rfl

/-! ### Attribute selectors -/

/-- The tokens of an attribute test. -/
def attributeTokens (a : String × String) : List Token :=
  [.mark '[', .ident a.1, .mark '=', .string a.2, .mark ']']

/-- An attribute with its value in CSS, as it is taken in. -/
def attributeText (a : String × String) : List Char :=
  (Snapshot.attributeSelector a.1 a.2).toList.map takenChar

theorem attributeText_eq {a : String × String} (h : IsIdent a.1.toList) (rest : List Char) :
    attributeText a ++ rest = '[' :: (a.1.toList ++ '=' :: '"' ::
      ((a.2.toList.flatMap Snapshot.cssEscape).map takenChar ++ '"' :: ']' :: rest)) := by
  have htext : Snapshot.attributeSelector a.1 a.2 =
      "[" ++ a.1 ++ "=" ++ Snapshot.cssString a.2 ++ "]" := rfl
  have hmarks : "[".toList.map takenChar = ['['] ∧ "=".toList.map takenChar = ['='] ∧
      "]".toList.map takenChar = [']'] ∧ takenChar '"' = '"' := by decide
  obtain ⟨hopen, hequals, hclose, hquote⟩ := hmarks
  rw [attributeText, htext, Snapshot.cssString]
  simp only [String.toList_append, String.toList_ofList, List.map_append, List.map_cons,
    List.map_nil, hopen, hequals, hclose, hquote, map_takenChar_of_isNameChar h.plain]
  simp

/-- **An attribute test is read** as it was written, but for its value. -/
theorem lex_attributeText {a : String × String} (h : IsIdent a.1.toList) (rest : List Char) :
    lex (attributeText a ++ rest) = (readValue? a.2).bind fun value =>
      (lex rest).map (attributeTokens (a.1, value) ++ ·) := by
  rw [attributeText_eq h, lex_mark (by decide),
    lex_ident h (isBreak_cons (by decide) _) (by simp), lex_mark (by decide)]
  rw [lex_string, readString_cssEscape, readValue?]
  cases readBack? a.2.toList with
  | none => rfl
  | some value =>
    rw [Option.map_some, Option.bind_some, lex_mark (by decide)]
    simp only [Option.map_map, String.ofList_toList]
    rfl

/-- **Attribute tests are read** one by one. -/
theorem lex_attributes {attrs : List (String × String)} (h : ∀ a ∈ attrs, IsIdent a.1.toList) :
    lex (attrs.flatMap attributeText) =
      (attrs.mapM fun a => (readValue? a.2).map (a.1, ·)).map (·.flatMap attributeTokens) := by
  induction attrs with
  | nil => simp [lex]
  | cons a attrs ih =>
    obtain ⟨ha, hattrs⟩ := List.forall_mem_cons.mp h
    rw [List.flatMap_cons, lex_attributeText ha, ih hattrs, List.mapM_cons]
    cases readValue? a.2 with
    | none => rfl
    | some value =>
      simp only [Option.bind_some, Option.map_some, Option.bind_eq_bind, Option.pure_def,
        Option.map_map, Option.map_bind]
      cases attrs.mapM fun a => (readValue? a.2).map (a.1, ·) <;> rfl

theorem readTests_attributes (attrs : List (String × String)) :
    readTests (attrs.flatMap attributeTokens) = some (attrs.map fun a => .attribute a.1 a.2) := by
  induction attrs with
  | nil => rfl
  | cons a attrs ih =>
    rw [List.flatMap_cons, attributeTokens]
    simp only [List.cons_append, List.nil_append, readTests, ih]
    rfl

theorem readCompound_attributes {tag : Option String} {attrs : List (String × String)}
    (h : tag = none → attrs ≠ []) :
    readCompound (tag.toList.map .ident ++ attrs.flatMap attributeTokens) =
      some ⟨tag, attrs.map fun a => .attribute a.1 a.2⟩ := by
  cases tag with
  | some tag => simp [readCompound, readTests_attributes]
  | none =>
    obtain ⟨a, rest, rfl⟩ := List.exists_cons_of_ne_nil (h rfl)
    have hread := readTests_attributes (a :: rest)
    rw [List.flatMap_cons, attributeTokens] at hread ⊢
    simp only [Option.toList_none, List.map_nil, List.nil_append, List.cons_append] at hread ⊢
    rw [readCompound, hread]
    · rfl
    · simp
    · simp
    · simp

/-- **A type and attribute tests** make a selector. One of the two may be missing. -/
theorem readSelector_attributes {tag : Option String} {attrs : List (String × String)}
    (h : tag = none → attrs ≠ []) :
    readSelector (tag.toList.map .ident ++ attrs.flatMap attributeTokens) =
      some ⟨⟨tag, attrs.map fun a => .attribute a.1 a.2⟩, []⟩ := by
  refine readSelector_eq (fun t ht => ?_) (readCompound_attributes h)
  rcases List.mem_append.mp ht with ht | ht
  · obtain ⟨g, -, rfl⟩ := List.mem_map.mp ht
    simp
  · obtain ⟨a, -, ha⟩ := List.mem_flatMap.mp ht
    simp only [attributeTokens, List.mem_cons, List.not_mem_nil, or_false] at ha
    rcases ha with rfl | rfl | rfl | rfl | rfl <;> simp

theorem lineFeed_notMem_cssString (value : String) :
    '\n' ∉ (Snapshot.cssString value).toList := by
  rw [Snapshot.cssString, String.toList_ofList]
  simp only [List.mem_append, List.mem_cons, List.mem_flatMap, List.not_mem_nil, or_false,
    not_or, not_exists, not_and]
  refine ⟨⟨by decide, fun c _ hc => ?_⟩, by decide⟩
  rw [Snapshot.cssEscape] at hc
  split at hc
  · simp at hc
  split at hc
  · simp at hc
  split at hc
  · simp at hc
  · next hne => exact hne (by simpa using (List.mem_singleton.mp hc).symm)

/-- An attribute test is written in one line, like all names. -/
theorem lineFeed_notMem_attributeSelector {name : String} (h : ∀ c ∈ name.toList, isNameChar c)
    (value : String) : '\n' ∉ (Snapshot.attributeSelector name value).toList := by
  have htext : Snapshot.attributeSelector name value =
      "[" ++ name ++ "=" ++ Snapshot.cssString value ++ "]" := rfl
  have hname : '\n' ∉ name.toList := fun hmem => absurd (h _ hmem) (by decide)
  have hmarks : '\n' ∉ "[".toList ∧ '\n' ∉ "=".toList ∧ '\n' ∉ "]".toList := by decide
  rw [htext]
  simp only [String.toList_append, List.mem_append, not_or]
  exact ⟨⟨⟨⟨hmarks.1, hname⟩, hmarks.2.1⟩, lineFeed_notMem_cssString value⟩, hmarks.2.2⟩

section

variable {attrs : List (String × String)} (hkeys : ∀ a ∈ attrs, IsIdent a.1.toList)

include hkeys

/-- Attribute tests are what may follow a type. -/
theorem isTail_attributes : IsTail (attrs.flatMap attributeText) := by
  cases attrs with
  | nil => exact .inl rfl
  | cons a attrs =>
    have ha := hkeys a List.mem_cons_self
    exact .inr ⟨a.1.toList, _, ha, by rw [List.flatMap_cons, attributeText_eq ha]⟩

/-- A type and attribute tests are taken in one after the other. -/
theorem taken_attributes {tag text : List Char}
    (htext : text = tag ++ attrs.flatMap fun a => (Snapshot.attributeSelector a.1 a.2).toList) :
    taken text = taken tag ++ attrs.flatMap attributeText := by
  have hline : '\n' ∉ attrs.flatMap fun a => (Snapshot.attributeSelector a.1 a.2).toList := by
    intro hmem
    obtain ⟨a, ha, hmem⟩ := List.mem_flatMap.mp hmem
    exact lineFeed_notMem_attributeSelector (hkeys a ha).plain a.2 hmem
  rw [htext, taken_append fun hhead => hline (List.mem_of_head? hhead),
    taken_eq_map_of_no_lineFeed hline, List.map_flatMap]
  rfl

end

/-- **How a type and attribute tests are read**: the type as it is, and each value as it is read
back. -/
theorem read_attributes {tag : Option String} {attrs : List (String × String)} {text : String}
    (htext : text.toList = (tag.getD "").toList ++
      attrs.flatMap fun a => (Snapshot.attributeSelector a.1 a.2).toList)
    (htag : ∀ g ∈ tag, IsIdent g.toList) (hkeys : ∀ a ∈ attrs, IsIdent a.1.toList)
    (hsome : tag = none → attrs ≠ []) :
    read text = (attrs.mapM fun a => (readValue? a.2).map (a.1, ·)).map fun found =>
      ⟨⟨tag, found.map fun a => .attribute a.1 a.2⟩, []⟩ := by
  have htail := isTail_attributes hkeys
  have hbracket : (attrs.flatMap attributeText).head? ≠ some '(' := by
    intro hhead
    exact absurd (htail.head _ hhead) (by decide)
  have hlex : lex (taken text.toList) = (lex (attrs.flatMap attributeText)).map
      (tag.toList.map .ident ++ ·) := by
    rw [taken_attributes hkeys htext]
    cases tag with
    | none => simp [taken]
    | some g =>
      have hg := htag g rfl
      have hline : '\n' ∉ g.toList := fun hmem => absurd (hg.plain _ hmem) (by decide)
      rw [Option.getD_some, taken_eq_map_of_no_lineFeed hline, map_takenChar_of_isNameChar hg.plain,
        lex_ident hg htail.isBreak hbracket, String.ofList_toList]
      rfl
  rw [read, hlex, lex_attributes hkeys]
  cases hfound : attrs.mapM fun a => (readValue? a.2).map (a.1, ·) with
  | none => rfl
  | some found =>
    simp only [Option.map_some, Option.bind_some]
    refine readSelector_attributes fun hnone hnil => hsome hnone ?_
    rw [mapM_eq_some_iff, hnil] at hfound
    exact List.forall₂_nil_right_iff.mp hfound

/-- **A type and attribute tests are read as what they ask for if every value can be written**, and
only then. There is an element that passes them. -/
theorem denotes_attributes {tag : Option String} {attrs : List (String × String)} {text : String}
    {p : Element → Prop} {e : Element}
    (htext : text.toList = (tag.getD "").toList ++
      attrs.flatMap fun a => (Snapshot.attributeSelector a.1 a.2).toList)
    (htag : ∀ g ∈ tag, IsIdent g.toList) (hkeys : ∀ a ∈ attrs, IsIdent a.1.toList)
    (hsome : tag = none → attrs ≠ [])
    (hp : ∀ x, p x ↔ (∀ g ∈ tag, x.tag = g) ∧ ∀ a ∈ attrs, x.attribute? a.1 = some a.2)
    (hself : p e) : Denotes text p ↔ ∀ a ∈ attrs, IsWritable a.2 := by
  rw [Denotes, read_attributes htext htag hkeys hsome]
  constructor
  · rintro ⟨sel, hread, hmatches⟩ a ha
    obtain ⟨found, hfound, rfl⟩ := Option.map_eq_some_iff.mp hread
    -- the element itself is the one that tells a value from what it is read as
    have hholds := ((hmatches { elements := [e] } e List.mem_cons_self).mpr hself).1.2
    have hforall := mapM_eq_some_iff.mp hfound
    obtain ⟨i, hi, rfl⟩ := List.mem_iff_getElem.mp ha
    have hi' : i < found.length := hforall.length_eq ▸ hi
    obtain ⟨value, hvalue, hpair⟩ := Option.map_eq_some_iff.mp (hforall.get hi hi')
    have hgiven : e.attribute? attrs[i].1 = some attrs[i].2 := ((hp e).mp hself).2 _ ha
    have hasked : e.attribute? found[i].1 = some found[i].2 :=
      hholds _ (List.mem_map.mpr ⟨found[i], List.getElem_mem hi', rfl⟩)
    have hfoundAt : found[i] = (attrs[i].1, value) := hpair.symm
    rw [hfoundAt, hgiven] at hasked
    exact readValue?_eq_self_iff.mp (hvalue.trans hasked.symm)
  · intro hwritable
    have hfound : attrs.mapM (fun a => (readValue? a.2).map (a.1, ·)) = some attrs := by
      refine mapM_eq_some_iff.mpr (List.forall₂_same.mpr fun a ha => ?_)
      rw [readValue?_eq_self_iff.mpr (hwritable a ha)]
      rfl
    refine ⟨_, by rw [hfound]; rfl, fun s x _ => ?_⟩
    rw [hp, Selector.Matches, Compound.Holds]
    simp only [HasParents, and_true, List.forall_mem_map]
    rfl

/-- **A type and attribute tests ask for what they are written for if the type is a name and every
value can be written**, and only then. -/
theorem denotes_type_attributes {tag text : String} {attrs : List (String × String)}
    {p : Element → Prop} {e : Element}
    (htext : text.toList = tag.toList ++
      attrs.flatMap fun a => (Snapshot.attributeSelector a.1 a.2).toList)
    (hkeys : ∀ a ∈ attrs, IsIdent a.1.toList)
    (hp : ∀ x, p x ↔ x.tag = tag ∧ ∀ a ∈ attrs, x.attribute? a.1 = some a.2) (hself : p e) :
    Denotes text p ↔ IsIdent tag.toList ∧ ∀ a ∈ attrs, IsWritable a.2 := by
  have hattrs (htag : IsIdent tag.toList) : Denotes text p ↔ ∀ a ∈ attrs, IsWritable a.2 := by
    have hsome : text.toList = ((some tag).getD "").toList ++
        attrs.flatMap fun a => (Snapshot.attributeSelector a.1 a.2).toList := htext
    exact denotes_attributes hsome (by simpa using htag) hkeys (by simp) (by simpa using hp) hself
  have hsame (x : Element) (hx : x.attributes = e.attributes) : p x ↔ x.tag = tag := by
    have hgiven : ∀ a ∈ attrs, x.attribute? a.1 = some a.2 := by
      simpa only [Element.attribute?, hx] using ((hp e).mp hself).2
    rw [hp, and_iff_left hgiven]
  constructor
  · intro h
    have htag := isIdent_of_denotes (isTail_attributes hkeys) (taken_attributes hkeys htext) hsame h
    exact ⟨htag, (hattrs htag).mp h⟩
  · rintro ⟨htag, hwritable⟩
    exact (hattrs htag).mpr hwritable

/-! ### Identifiers -/

/-- **An identifier that can be written**: where it is written as a name, it may not end in a line
feed. -/
def IsWritableId (id : String) : Prop :=
  if Snapshot.isCssIdent id.toList then id.toList.getLast? ≠ some '\n' else IsWritable id

theorem isIdent_of_isIdentBody {name : List Char} (h : Snapshot.isIdentBody name = true) :
    IsIdent name ∧ IsIdent ('-' :: name) := by
  cases name with
  | nil => cases h
  | cons c name =>
    simp only [Snapshot.isIdentBody, Bool.and_eq_true, List.all_eq_true] at h
    obtain ⟨hc, hname⟩ := h
    have hstart : isNameStart c = true := by rw [isNameStart, hc, Bool.true_or]
    have hident : IsIdent (c :: name) := by
      refine isIdent_cons hstart fun d hd => ?_
      have hd := hname d hd
      simp only [Snapshot.isIdentRest, Char.isAlphanum, Bool.or_eq_true] at hd
      simp only [isNameChar, isNameStart, Bool.or_eq_true]
      tauto
    refine ⟨hident, ⟨?_, List.forall_mem_cons.mpr ⟨by decide, hident.plain⟩⟩⟩
    rw [startsName, if_pos rfl]
    simp [hstart]

/-- **What is written as a name is one**, but for a line feed at its end. -/
theorem isIdent_of_isCssIdent {name : List Char} (h : Snapshot.isCssIdent name = true) :
    IsIdent (if name.getLast? = some '\n' then name.dropLast else name) := by
  simp only [Snapshot.isCssIdent, beq_iff_eq] at h
  split at h
  · next rest heq =>
    rw [heq]
    exact (isIdent_of_isIdentBody h).2
  · exact (isIdent_of_isIdentBody h).1

/-- A number sign and a name, with or without a blank at the end. -/
theorem read_number_sign {name : List Char} (h : IsIdent name) {blank : List Char}
    (hblank : blank = [] ∨ blank = ['\n']) :
    read (String.ofList ('#' :: (name ++ blank))) =
      some ⟨⟨none, [.id (String.ofList name)]⟩, []⟩ := by
  have hplain := map_takenChar_of_isNameChar h.plain
  have hreturn : '\r' ∉ '#' :: (name ++ blank) := by
    have hname : '\r' ∉ name := fun hmem => absurd (h.plain _ hmem) (by decide)
    rcases hblank with rfl | rfl <;> simp [hname]
  have htaken : ('#' :: (name ++ blank)).map takenChar = '#' :: (name ++ blank) := by
    rw [List.map_cons, List.map_append, hplain]
    rcases hblank with rfl | rfl <;> rfl
  have hbreak : IsBreak blank := by
    rcases hblank with rfl | rfl
    · exact isBreak_nil
    · exact isBreak_cons (by decide) _
  rw [read, String.toList_ofList, taken_eq_map hreturn, htaken, lex_hash h hbreak]
  rcases hblank with rfl | rfl
  · rw [lex]
    rfl
  · rw [lex_blank rfl (by simp), lex]
    rfl

theorem denotes_number_sign {name blank : List Char} (h : IsIdent name)
    (hblank : blank = [] ∨ blank = ['\n']) {p : Element → Prop} {e : Element}
    (hp : ∀ x, p x ↔ x.attribute? "id" = some (String.ofList (name ++ blank))) (hself : p e) :
    Denotes (String.ofList ('#' :: (name ++ blank))) p ↔ blank = [] := by
  have hmatches (s : Snapshot) (x : Element) :
      Selector.Matches ⟨⟨none, [.id (String.ofList name)]⟩, []⟩ s x ↔
        x.attribute? "id" = some (String.ofList name) := by
    simp [Selector.Matches, Compound.Holds, HasParents, Test.Holds]
  rw [Denotes, read_number_sign h hblank]
  constructor
  · rintro ⟨_, ⟨rfl⟩, hiff⟩
    have hread := (hmatches _ e).mp ((hiff { elements := [e] } e List.mem_cons_self).mpr hself)
    have hgiven := (hp e).mp hself
    have hsame : name = name ++ blank := by
      rw [hgiven, Option.some.injEq, String.ofList_inj] at hread
      exact hread.symm
    exact List.append_right_eq_self.mp hsame.symm
  · rintro rfl
    refine ⟨_, rfl, fun s x _ => ?_⟩
    rw [hmatches, hp, List.append_nil]

/-- **A selector by the identifier asks for it if it can be written**, and only then. There is an
element that has it. -/
theorem denotes_idSelector {id : String} {p : Element → Prop} {e : Element}
    (hp : ∀ x, p x ↔ x.attribute? "id" = some id) (hself : p e) :
    Denotes (Snapshot.idSelector id) p ↔ IsWritableId id := by
  rw [Snapshot.idSelector, IsWritableId]
  split
  · next hident =>
    have hname := isIdent_of_isCssIdent hident
    have htext : toString "#" ++ toString id = String.ofList ('#' :: id.toList) := by
      rw [← String.toList_inj]
      simp [toString]
    rw [htext]
    split at hname
    · next hlast =>
      -- the line feed is read as a blank, and the element has an identifier with it
      have hsplit : id.toList = id.toList.dropLast ++ ['\n'] :=
        (List.dropLast_append_getLast? _ hlast).symm
      have hid : id = String.ofList (id.toList.dropLast ++ ['\n']) := by
        rw [← hsplit, String.ofList_toList]
      have hread := denotes_number_sign hname (.inr rfl) (fun x => by rw [hp, ← hid]) hself
      rw [← hsplit] at hread
      simpa [hlast] using hread
    · next hlast =>
      have hid : id = String.ofList (id.toList ++ []) := by simp
      have hread := denotes_number_sign hname (.inl rfl) (fun x => by rw [hp, ← hid]) hself
      rw [List.append_nil] at hread
      simpa [hlast] using hread
  · next hident =>
    have hkeys : IsIdent "id".toList := by decide
    have hnone : (Snapshot.attributeSelector "id" id).toList = (none.getD "").toList ++
        [("id", id)].flatMap fun a => (Snapshot.attributeSelector a.1 a.2).toList := by simp
    have hread := denotes_attributes hnone (by simp) (by simpa using hkeys) (by simp)
      (by simpa using hp) hself
    have htext : toString "[id=" ++ toString (Snapshot.cssString id) ++ toString "]" =
        Snapshot.attributeSelector "id" id := by
      rw [← String.toList_inj]
      simp [Snapshot.attributeSelector, toString]
    rw [htext]
    simpa using hread

end Css

/-! ### The attribute selectors of an element -/

/-- **An attribute test that can be written.** -/
@[mk_iff]
structure AttributeTest.IsWritable (t : AttributeTest) : Prop where
  tag : ∀ tag ∈ t.tag, Css.IsIdent tag.toList
  name : ∀ name ∈ t.name, Css.IsWritable name
  type : ∀ type ∈ t.type, Css.IsWritable type
  id : ∀ id ∈ t.id, Css.IsWritableId id

/-- A tag with a name or a type or both of them, or an identifier alone. -/
theorem Element.eq_of_mem_attributeTests {e : Element} {t : AttributeTest}
    (h : t ∈ e.attributeTests) :
    (∃ name type, t = { tag := some e.tag, name := name, type := type }) ∨
      ∃ id, t = { id := some id } := by
  simp only [attributeTests, List.mem_append, List.mem_map, List.mem_flatMap, List.mem_singleton]
    at h
  rcases h with (((⟨n, -, rfl⟩ | ⟨y, -, rfl⟩) | ⟨n, -, y, -, rfl⟩) | rfl) | ⟨id, -, rfl⟩
  · exact .inl ⟨some n, none, rfl⟩
  · exact .inl ⟨none, some y, rfl⟩
  · exact .inl ⟨some n, some y, rfl⟩
  · exact .inl ⟨none, none, rfl⟩
  · exact .inr ⟨id, rfl⟩

/-- The name and the type that are asked for, with their attributes. -/
def AttributeTest.attributes (t : AttributeTest) : List (String × String) :=
  t.name.toList.map ("name", ·) ++ t.type.toList.map ("type", ·)

theorem AttributeTest.isIdent_of_mem_attributes {t : AttributeTest} :
    ∀ a ∈ t.attributes, Css.IsIdent a.1.toList := by
  have hname : Css.IsIdent "name".toList := by decide
  have htype : Css.IsIdent "type".toList := by decide
  intro a ha
  rcases List.mem_append.mp ha with ha | ha
  · obtain ⟨value, -, rfl⟩ := List.mem_map.mp ha
    exact hname
  · obtain ⟨value, -, rfl⟩ := List.mem_map.mp ha
    exact htype

/-- **The attribute tests of an element ask in CSS for what they test if they can be written**, and
only then. -/
theorem AttributeTest.denotes_css {e : Element} {t : AttributeTest} (h : t ∈ e.attributeTests)
    (hself : t.Holds e) : Css.Denotes t.css t.Holds ↔ t.IsWritable := by
  rcases Element.eq_of_mem_attributeTests h with ⟨name, type, ht⟩ | ⟨id, rfl⟩
  · have htext : t.css.toList = e.tag.toList ++
        t.attributes.flatMap fun a => (Snapshot.attributeSelector a.1 a.2).toList := by
      rw [ht]
      cases name <;> cases type <;> simp [css, attributes]
    have hholds (x : Element) :
        t.Holds x ↔ x.tag = e.tag ∧ ∀ a ∈ t.attributes, x.attribute? a.1 = some a.2 := by
      rw [ht]
      cases name <;> cases type <;> simp [Holds, attributes]
    have hwritable : t.IsWritable ↔
        Css.IsIdent e.tag.toList ∧ ∀ a ∈ t.attributes, Css.IsWritable a.2 := by
      rw [isWritable_iff, ht]
      cases name <;> cases type <;> simp [attributes]
    rw [Css.denotes_type_attributes htext isIdent_of_mem_attributes hholds hself, hwritable]
  · have htext : AttributeTest.css { id := some id } = Snapshot.idSelector id := by
      rw [← String.toList_inj]
      simp [css]
    have hholds (x : Element) :
        AttributeTest.Holds { id := some id } x ↔ x.attribute? "id" = some id := by
      simp [Holds]
    rw [htext, Css.denotes_idSelector hholds hself, isWritable_iff]
    simp

namespace Snapshot

/-- What is written as a name is one, unless it ends in a line feed. -/
theorem isIdent_iff_of_idSelector {id : String} (h : idSelector id = "#" ++ id) :
    Css.IsIdent id.toList ↔ id.toList.getLast? ≠ some '\n' := by
  have hident : isCssIdent id.toList = true := by
    rw [idSelector] at h
    split at h
    · assumption
    · have htext := congrArg String.toList h
      simp [toString] at htext
  have hname := Css.isIdent_of_isCssIdent hident
  split at hname
  · next hlast =>
    refine iff_of_false (fun hid => ?_) (not_not.mpr hlast)
    exact absurd (hid.plain _ (List.mem_of_getLast? hlast)) (by decide)
  · next hlast => exact iff_of_true hname hlast

/-- A value between double quotes is read as one string. -/
theorem lex_cssString_iff {value : String} :
    Css.lex (Css.taken (cssString value).toList) = some [.string value] ↔
      Css.IsWritable value := by
  have htext : (cssString value).toList.map Css.takenChar =
      '"' :: ((value.toList.flatMap cssEscape).map Css.takenChar ++ ['"']) := by
    have hquote : Css.takenChar '"' = '"' := by decide
    simp [cssString, hquote]
  rw [Css.taken_eq_map_of_no_lineFeed (Css.lineFeed_notMem_cssString value), htext, Css.lex_string,
    Css.readString_cssEscape, ← Css.readValue?_eq_self_iff, Css.readValue?]
  cases Css.readBack? value.toList with
  | none => simp
  | some found =>
    rw [Option.map_some, Option.bind_some, Css.lex]
    simp

/-- **The attribute selectors of an element, read as CSS.** A value in quotes is read as one string,
which is the value if it can be written. A name is written after a number sign only if it is one,
but for a line feed at its end. A selector asks for what was counted if and only if what it is made
of can be written; and these are all the attribute selectors that are returned. -/
theorem attributeCandidates_denote (e : Element) :
    (∀ value, Css.lex (Css.taken (cssString value).toList) = some [.string value] ↔
      Css.IsWritable value) ∧
    (∀ id, idSelector id = "#" ++ id →
      (Css.IsIdent id.toList ↔ id.toList.getLast? ≠ some '\n')) ∧
    List.Forall₂ (fun candidate test =>
        candidate.1 = test.css ∧ (∀ x, candidate.2 x = true ↔ test.Holds x) ∧
          (Css.Denotes candidate.1 (candidate.2 · = true) ↔ test.IsWritable))
      (attributeCandidates e) e.attributeTests ∧
    ∀ (s : Snapshot) (selector : Selector), s.byAttributes e = some selector →
      ∃ candidate ∈ attributeCandidates e,
        selector = .css candidate.1 false ∧ s.hasOne candidate.2 = true := by
  refine ⟨fun value => lex_cssString_iff, fun id => isIdent_iff_of_idSelector, ?_, ?_⟩
  · have htests := (List.forall₂_and_left (p := (· ∈ e.attributeTests)) ..).mpr
      ⟨fun t ht => ht, (attributeCandidates_forall₂ e).flip⟩
    refine (htests.imp ?_).flip
    rintro test candidate ⟨hmem, hcss, hholds, hself⟩
    refine ⟨hcss, hholds, ?_⟩
    have hp : (candidate.2 · = true) = test.Holds := funext fun x => propext (hholds x)
    rw [hp, hcss]
    exact AttributeTest.denotes_css hmem hself
  · intro s selector hselector
    obtain ⟨candidate, hfind, rfl⟩ := Option.map_eq_some_iff.mp hselector
    have hone : s.hasOne candidate.2 = true := by simpa using List.find?_some hfind
    exact ⟨candidate, List.mem_of_find?_eq_some hfind, rfl, hone⟩

/-! ### An identifier that ends in a line feed -/

/-- An element whose identifier is a name and a line feed. -/
def longerElement : Element := { ref := "a", tag := "div", attributes := [("id", "x\n")] }

/-- An element whose identifier is the name alone. -/
def shorterElement : Element := { ref := "b", tag := "div", attributes := [("id", "x")] }

/-- A page with the two elements. -/
def lineFeedPage : Snapshot := { elements := [longerElement, shorterElement] }

/-- **The first element is counted, and the second one is asked for.** -/
theorem byAttributes_lineFeedPage :
    lineFeedPage.byAttributes longerElement = some (.css "#x\n" false) ∧
      ∃ sel, Css.read "#x\n" = some sel ∧ sel.Matches lineFeedPage shorterElement ∧
        ¬ sel.Matches lineFeedPage longerElement := by
  have hread : Css.read "#x\n" = some ⟨⟨none, [.id "x"]⟩, []⟩ := by decide +kernel
  refine ⟨by decide +kernel, _, hread, ⟨⟨by simp, ?_⟩, trivial⟩, fun hmatches => ?_⟩
  · intro t ht
    rw [List.mem_singleton.mp ht]
    rfl
  · have hid : longerElement.attribute? "id" = some "x" := hmatches.1.2 _ List.mem_cons_self
    exact absurd hid (by decide)

end Snapshot

end Scribe
