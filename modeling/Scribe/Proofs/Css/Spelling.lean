import Scribe.Proofs.Css.Selector

/-!
# Types that are read as they are written

**A type is read as the text it is written as only if this text is a name.** Escapes are what has to
be ruled out. One takes more characters than it stands for, so with an escape in it a name is
shorter than its text (`Scribe.Css.IsReadFrom`), unless the last character of the text is a
backslash and escapes what the text is followed by. Then the name does not end as its text does.

What follows a type is nothing or the test of an attribute (`Scribe.Css.IsTail`).
-/

namespace Scribe.Css

/-! ### What follows a type -/

/-- **What follows a type**: nothing, or the test of an attribute. -/
def IsTail (tail : List Char) : Prop :=
  tail = [] ∨ ∃ key rest, IsIdent key ∧ tail = '[' :: (key ++ '=' :: rest)

theorem IsTail.head {tail : List Char} (h : IsTail tail) : ∀ c ∈ tail.head?, c = '[' := by
  rcases h with rfl | ⟨key, rest, -, rfl⟩ <;> simp [eq_comm]

theorem IsTail.isBreak {tail : List Char} (h : IsTail tail) : IsBreak tail := by
  intro c hc
  rw [h.head c hc]
  decide

section

variable {text tail : List Char} {p : Char → Bool}

/-- What a tail begins with is passed over by no scan. -/
theorem takeWhile_append_of_head (hp : p '[' = false) (h : ∀ c ∈ tail.head?, c = '[') :
    (text ++ tail).takeWhile p = text.takeWhile p := by
  induction text with
  | nil =>
    cases tail with
    | nil => rfl
    | cons c tail => simp [h c rfl, hp]
  | cons c text ih =>
    rw [List.cons_append, List.takeWhile_cons, List.takeWhile_cons, ih]

theorem dropWhile_append_of_head (hp : p '[' = false) (h : ∀ c ∈ tail.head?, c = '[') :
    (text ++ tail).dropWhile p = text.dropWhile p ++ tail := by
  induction text with
  | nil =>
    cases tail with
    | nil => rfl
    | cons c tail => simp [h c rfl, hp]
  | cons c text ih =>
    rw [List.cons_append, List.dropWhile_cons, List.dropWhile_cons, ih]
    split <;> rfl

end

/-! ### Escapes -/

section

variable {text tail : List Char}

theorem isEscape_append (h : ∀ c ∈ tail.head?, c = '[') (c : Char) (rest : List Char) :
    isEscape (c :: (rest ++ tail)) = isEscape (c :: rest) := by
  have hhead : ((rest ++ tail).head? != some '\n') = (rest.head? != some '\n') := by
    cases rest with
    | nil =>
      cases tail with
      | nil => rfl
      | cons d tail =>
        obtain rfl := h d rfl
        rfl
    | cons d rest => rfl
  by_cases hc : c = '\\'
  · rw [hc, isEscape, isEscape, hhead]
  · rw [isEscape_cons_of_ne hc, isEscape_cons_of_ne hc]

theorem leadingNumber_append (h : ∀ c ∈ tail.head?, c = '[') :
    Text.leadingNumber 16 6 (text ++ tail) = Text.leadingNumber 16 6 text := by
  have htake : ∀ c ∈ (tail.take (6 - text.length)).head?, c = '[' := by
    intro c hc
    rw [List.head?_take] at hc
    split at hc
    · cases hc
    · exact h c hc
  rw [Text.leadingNumber, List.take_append, takeWhile_append_of_head (by decide) htake]
  rfl

theorem skipBlank_append (h : ∀ c ∈ tail.head?, c = '[') :
    skipBlank (text ++ tail) = skipBlank text ++ tail := by
  cases text with
  | nil =>
    cases tail with
    | nil => rfl
    | cons c tail =>
      obtain rfl := h c rfl
      rfl
  | cons c text =>
    rw [List.cons_append, skipBlank, skipBlank]
    split <;> rfl

/-- **An escape ends in its own text**, but for a backslash at the very end. -/
theorem readEscape_append (h : ∀ c ∈ tail.head?, c = '[') (c : Char) (rest : List Char) :
    readEscape (c :: rest ++ tail) =
      ((readEscape (c :: rest)).1, (readEscape (c :: rest)).2 ++ tail) := by
  have hnumber : Text.leadingNumber 16 6 (c :: rest ++ tail) =
      Text.leadingNumber 16 6 (c :: rest) := leadingNumber_append h
  have hcount : (Text.leadingNumber 16 6 (c :: rest)).2 ≤ (c :: rest).length :=
    (List.takeWhile_prefix _).length_le.trans (List.length_take_le' ..)
  rw [List.cons_append] at hnumber ⊢
  rw [readEscape, readEscape, hnumber]
  dsimp only
  split
  · rfl
  · rw [← List.cons_append, List.drop_append_of_le_length hcount, skipBlank_append h]

end

/-! ### Names -/

/-- **How a name comes from a text** that a tail follows. -/
inductive IsReadFrom (text name : List Char) : Prop where
  /-- It is as much of the text as there are characters of names. -/
  | plain (rest : List Char) (htext : text = name ++ rest) (hname : ∀ c ∈ name, isNameChar c = true)
  /-- It is shorter than the text, since it has escapes. -/
  | shorter (hlength : name.length < text.length)
  /-- Its last escape takes in what follows the text. -/
  | escaped (htext : text.getLast? = some '\\') (hname : name.getLast? ≠ some '\\')

theorem IsReadFrom.cons {text name : List Char} (h : IsReadFrom text name) {c : Char}
    (hc : isNameChar c = true) : IsReadFrom (c :: text) (c :: name) := by
  cases h with
  | plain rest htext hname =>
    exact .plain rest (by rw [htext]; rfl) (List.forall_mem_cons.mpr ⟨hc, hname⟩)
  | shorter hlength => exact .shorter (Nat.succ_lt_succ hlength)
  | escaped htext hname =>
    refine .escaped (by rw [List.getLast?_cons, htext]; rfl) ?_
    rw [List.getLast?_cons]
    cases hlast : name.getLast? with
    | none => simpa using ne_of_isNameChar hc (by decide)
    | some d => simpa [hlast] using hname

/-- What an escape stands for is one character, and it takes two at least. -/
theorem IsReadFrom.escape {text name rest : List Char} (h : IsReadFrom text name)
    (hrest : text <:+ rest) (hlt : text.length < rest.length) (c : Char) :
    IsReadFrom ('\\' :: rest) (c :: name) := by
  have hshort : name.length < rest.length → IsReadFrom ('\\' :: rest) (c :: name) :=
    fun hlength => .shorter (Nat.succ_lt_succ hlength)
  cases h with
  | plain after htext hname =>
    refine hshort (lt_of_le_of_lt ?_ hlt)
    rw [htext, List.length_append]
    exact Nat.le_add_right _ _
  | shorter hlength => exact hshort (hlength.trans hlt)
  | escaped htext hname =>
    by_cases hnil : name = []
    · rw [hnil] at hshort ⊢
      exact hshort (Nat.zero_lt_of_lt hlt)
    · obtain ⟨before, rfl⟩ := hrest
      refine .escaped ?_ ?_
      · rw [List.getLast?_cons, List.getLast?_append, htext]
        rfl
      · rw [List.getLast?_cons_of_ne_nil hnil]
        exact hname

/-- **A backslash in front of a tail** takes in the bracket of the tail and the key after it, or
stands for a replaced character. -/
theorem IsTail.getLast?_readName_escape {tail : List Char} (h : IsTail tail) :
    ((readEscape tail).1 :: (readName (readEscape tail).2).1).getLast? ≠ some '\\' := by
  have hlast {name : List Char} (hname : ∀ c ∈ name, c ≠ '\\') : name.getLast? ≠ some '\\' :=
    fun heq => hname _ (List.mem_of_getLast? heq) rfl
  apply hlast
  rcases h with rfl | ⟨key, rest, hkey, rfl⟩
  · simp [readEscape, readName]
  · have hbreak : IsBreak ('=' :: rest) := isBreak_cons (by decide) rest
    rw [readEscape_of_not_hex (by decide), readName_append hkey.plain hbreak, List.forall_mem_cons]
    have hbracket : '[' ≠ '\\' := by decide
    exact ⟨hbracket, fun c hc => ne_of_isNameChar (hkey.plain c hc) (by decide)⟩

/-- **A name comes from the text before a tail**, and from the tail only by an escape. -/
theorem isReadFrom_readName {text tail : List Char} (h : IsTail tail) :
    IsReadFrom text (readName (text ++ tail)).1 := by
  induction text using readName.induct with
  | case1 =>
    have hname : readName ([] ++ tail) = ([], tail) := readName_append (by simp) h.isBreak
    rw [hname]
    exact .plain [] rfl (by simp)
  | case2 c rest hc ih =>
    rw [List.cons_append, readName, if_pos hc]
    exact ih.cons hc
  | case3 c rest hc hescape hle ih =>
    obtain rfl : c = '\\' := by
      by_contra hne
      exact absurd hescape (by rw [isEscape_cons_of_ne hne]; decide)
    rw [List.cons_append, readName, if_neg hc, if_pos ((isEscape_append h.head ..).trans hescape)]
    cases rest with
    | nil => exact .escaped rfl (h.getLast?_readName_escape)
    | cons d rest =>
      have hsuffix := readEscape_suffix d rest
      rw [readEscape_append h.head]
      exact ih.escape (hsuffix.trans (List.suffix_cons d rest))
        (Nat.lt_succ_of_le hsuffix.length_le) _
  | case4 c rest hc hescape =>
    rw [List.cons_append, readName, if_neg hc, if_neg (by rwa [isEscape_append h.head])]
    exact .plain (c :: rest) rfl (by simp)

/-! ### Types -/

section

variable {c : Char} {rest after : List Char}

/-- **The first token is a blank, a name or neither of them.** -/
theorem nextToken_eq_some {t : Token} (h : nextToken c rest = some (t, after)) :
    (isBlank c = true ∧ t = .blank ∧ after = rest.dropWhile isBlank) ∨
      (startsName (c :: rest) = true ∧ (t, after) = nameToken (c :: rest)) ∨
        (t ≠ .blank ∧ ∀ name, t ≠ .ident name) := by
  rw [nextToken] at h
  split at h
  · next hc =>
    cases h
    exact .inl ⟨hc, rfl, rfl⟩
  split at h
  · obtain ⟨r, -, hr⟩ := Option.map_eq_some_iff.mp h
    cases hr
    exact .inr (.inr (by simp))
  split at h
  · split at h
    · cases h
      exact .inr (.inr (by simp))
    · cases h
      exact .inr (.inr (by simp))
  split at h
  · rw [numberToken] at h
    split at h
    · cases h
    · cases h
      exact .inr (.inr (by simp))
  split at h
  · cases h
  split at h
  · next hstarts => exact .inr (.inl ⟨hstarts, (Option.some.inj h).symm⟩)
  · cases h
    exact .inr (.inr (by simp))

theorem nextToken_eq_blank (h : nextToken c rest = some (.blank, after)) :
    isBlank c = true ∧ after = rest.dropWhile isBlank := by
  rcases nextToken_eq_some h with ⟨hc, -, hafter⟩ | ⟨-, hname⟩ | ⟨hne, -⟩
  · exact ⟨hc, hafter⟩
  · rw [nameToken] at hname
    dsimp only at hname
    split at hname <;> cases hname
  · exact absurd rfl hne

theorem nextToken_eq_ident {name : String} (h : nextToken c rest = some (.ident name, after)) :
    startsName (c :: rest) = true ∧ (readName (c :: rest)).1 = name.toList := by
  rcases nextToken_eq_some h with ⟨-, hblank, -⟩ | ⟨hstarts, hname⟩ | ⟨-, hne⟩
  · cases hblank
  · rw [nameToken] at hname
    dsimp only at hname
    split at hname
    · cases hname
    · cases hname
      exact ⟨hstarts, (String.toList_ofList ..).symm⟩
  · exact absurd rfl (hne name)

end

/-- **The name at the front of the tokens** is read from the text, or from what is left of it when
blanks are passed over. -/
theorem exists_suffix_of_lex {tail : List Char} (htail : IsTail tail) {tokens : List Token}
    {name : String} {text : List Char} (h : lex (text ++ tail) = some tokens)
    (hname : (tokens.dropWhile (· == .blank)).head? = some (.ident name)) :
    ∃ part, part <:+ text ∧ startsName (part ++ tail) = true ∧
      (readName (part ++ tail)).1 = name.toList := by
  induction tokens generalizing text with
  | nil => cases hname
  | cons t tokens ih =>
    cases htext : text ++ tail with
    | nil =>
      rw [htext, lex] at h
      cases h
    | cons c rest =>
      rw [htext, lex] at h
      split at h
      · cases h
      next t' after hnext =>
      obtain ⟨ts, hafter, hts⟩ := Option.map_eq_some_iff.mp h
      obtain ⟨rfl, rfl⟩ := List.cons.inj hts
      by_cases ht : t' = .blank
      · subst ht
        obtain ⟨hc, rfl⟩ := nextToken_eq_blank hnext
        cases text with
        | nil =>
          obtain rfl := htail.head c (by rw [show tail = c :: rest from htext]; rfl)
          exact absurd hc (by decide)
        | cons d text =>
          obtain ⟨-, hrest⟩ := List.cons.inj htext
          rw [← hrest] at hafter
          have hdrop : (text ++ tail).dropWhile isBlank = text.dropWhile isBlank ++ tail :=
            dropWhile_append_of_head rfl htail.head
          obtain ⟨part, hpart, hread⟩ := ih (hdrop ▸ hafter) hname
          have hsuffix := (List.dropWhile_suffix isBlank).trans (List.suffix_cons d text)
          exact ⟨part, hpart.trans hsuffix, hread⟩
      · rw [List.dropWhile_cons_of_neg (by simpa using ht)] at hname
        obtain rfl := Option.some.inj hname
        refine ⟨text, List.suffix_rfl, ?_⟩
        rw [htext]
        exact nextToken_eq_ident hnext

/-! ### What is taken in -/

theorem length_taken_le (text : List Char) : (taken text).length ≤ text.length := by
  induction text using taken.induct with
  | case1 => exact le_rfl
  | case2 rest ih =>
    rw [taken, List.length_cons, List.length_cons, List.length_cons]
    omega
  | case3 c rest hne ih =>
    rw [taken]
    · exact Nat.succ_le_succ ih
    · exact hne

theorem taken_cons_ne_nil (c : Char) (rest : List Char) : taken (c :: rest) ≠ [] := by
  rw [taken.eq_def]
  split <;> simp_all

/-- A backslash at the end was there before. -/
theorem getLast?_of_getLast?_taken {text : List Char} (h : (taken text).getLast? = some '\\') :
    text.getLast? = some '\\' := by
  have hback {c : Char} (hc : takenChar c = '\\') : c = '\\' := by
    rw [takenChar] at hc
    split at hc
    · cases hc
    split at hc
    · cases hc
    · exact hc
  have hcons {c d : Char} {l : List Char} (hlast : (d :: taken l).getLast? = some '\\')
      (hl : (taken l).getLast? = some '\\' → l.getLast? = some '\\')
      (hd : d = '\\' → c = '\\') : (c :: l).getLast? = some '\\' := by
    rw [List.getLast?_cons] at hlast ⊢
    cases l with
    | nil => exact congrArg some (hd (Option.some.inj hlast))
    | cons a l =>
      obtain ⟨x, hx⟩ := Option.ne_none_iff_exists'.mp
        (mt List.getLast?_eq_none_iff.mp (taken_cons_ne_nil a l))
      rw [hx, Option.getD_some] at hlast
      rw [hl (hx.trans hlast)]
      rfl
  induction text using taken.induct with
  | case1 => exact h
  | case2 rest ih =>
    rw [List.getLast?_cons_cons]
    exact hcons h ih (by decide)
  | case3 c rest hne ih =>
    rw [taken] at h
    · exact hcons h ih hback
    · exact hne

/-- Texts are taken in one after the other, if no line feed comes between them. -/
theorem taken_append {text rest : List Char} (h : rest.head? ≠ some '\n') :
    taken (text ++ rest) = taken text ++ taken rest := by
  induction text using taken.induct with
  | case1 => rfl
  | case2 text ih =>
    rw [List.cons_append, List.cons_append, taken, taken, ih]
    rfl
  | case3 c text hne ih =>
    have hne' : ∀ after, c = '\r' → text ++ rest = '\n' :: after → False := by
      intro after hc heq
      cases text with
      | nil => exact h (by rw [show rest = '\n' :: after from heq]; rfl)
      | cons d text => exact hne text hc (by rw [(List.cons.inj heq).1])
    rw [List.cons_append, taken, taken, ih]
    · rfl
    · exact hne
    · exact hne'

/-- What follows a name does not make it one. -/
theorem IsBreak.startsName_of_append {name rest : List Char} (hrest : IsBreak rest)
    (hname : ∀ c ∈ name, isNameChar c = true) (h : startsName (name ++ rest) = true) :
    startsName name = true := by
  -- after what a name may start with, a break does not go on with the name
  have hstop : ∀ c ∈ rest.head?, isNameStart c = false ∧ c ≠ '-' := by
    intro c hc
    have hchar := (hrest c hc).1
    simp only [isNameChar, Bool.or_eq_false_iff] at hchar
    exact ⟨hchar.1.1, by simpa using hchar.2⟩
  have hescape {c : Char} (hc : isNameChar c = true) (after : List Char) :
      Css.isEscape (c :: after) = false :=
    isEscape_cons_of_ne (ne_of_isNameChar hc (by decide)) after
  cases name with
  | nil =>
    cases rest with
    | nil => exact h
    | cons c rest =>
      rw [List.nil_append, startsName, if_neg (hstop c rfl).2, (hstop c rfl).1,
        hrest.isEscape] at h
      cases h
  | cons c name =>
    obtain ⟨hc, hname⟩ := List.forall_mem_cons.mp hname
    rw [List.cons_append, startsName] at h
    rw [startsName]
    split
    · next hdash =>
      rw [if_pos hdash] at h
      cases name with
      | nil =>
        rw [List.nil_append, hrest.isEscape, Bool.or_false] at h
        cases rest with
        | nil => exact h
        | cons d rest => simp [hstop d rfl] at h
      | cons d name =>
        have hd := hname d List.mem_cons_self
        rw [List.cons_append, hescape hd] at h
        rw [hescape hd]
        exact h
    · next hdash =>
      rw [if_neg hdash, hescape hc] at h
      rw [hescape hc]
      exact h

/-- **A type that is read as itself is a name.** -/
theorem isIdent_of_lex {tag : String} {tail : List Char} {tokens : List Token} (htail : IsTail tail)
    (h : lex (taken tag.toList ++ tail) = some tokens)
    (hname : (tokens.dropWhile (· == .blank)).head? = some (.ident tag)) : IsIdent tag.toList := by
  obtain ⟨part, hpart, hstarts, hread⟩ := exists_suffix_of_lex htail h hname
  have hlength : part.length ≤ tag.toList.length := hpart.length_le.trans (length_taken_le _)
  have hfrom : IsReadFrom part (readName (part ++ tail)).1 := isReadFrom_readName htail
  rw [hread] at hfrom
  cases hfrom with
  | plain rest htext hplain =>
    obtain rfl : rest = [] := by
      rw [htext, List.length_append] at hlength
      exact List.length_eq_zero_iff.mp (by omega)
    rw [List.append_nil] at htext
    rw [htext] at hstarts
    exact ⟨htail.isBreak.startsName_of_append hplain hstarts, hplain⟩
  | shorter hshort => exact absurd hlength (Nat.not_le_of_lt hshort)
  | escaped hlast hne =>
    obtain ⟨before, hbefore⟩ := hpart
    refine absurd (getLast?_of_getLast?_taken ?_) hne
    rw [← hbefore, List.getLast?_append, hlast]
    rfl

/-! ### What a type asks for -/

theorem eq_cons_of_readCompound {tokens : List Token} {c : Compound} {tag : String}
    (h : readCompound tokens = some c) (htag : c.type = some tag) :
    ∃ rest, tokens = .ident tag :: rest := by
  rw [readCompound.eq_def] at h
  split at h
  · cases h
  · next found rest =>
    obtain ⟨tests, -, rfl⟩ := Option.map_eq_some_iff.mp h
    obtain rfl := Option.some.inj htag
    exact ⟨rest, rfl⟩
  · obtain ⟨tests, -, rfl⟩ := Option.map_eq_some_iff.mp h
    cases htag
  · obtain ⟨tests, -, rfl⟩ := Option.map_eq_some_iff.mp h
    cases htag

/-- The type of a compound selector that stands by itself is its first token. -/
theorem head?_of_readSelector {tokens : List Token} {c : Compound} {tag : String}
    (h : readSelector tokens = some ⟨c, []⟩) (htag : c.type = some tag) :
    (tokens.dropWhile (· == .blank)).head? = some (.ident tag) := by
  rw [readSelector] at h
  split at h
  · cases h
  next compounds hcompounds =>
  split at h
  · cases h
  next subject parents hreverse =>
  obtain ⟨rfl, rfl⟩ : subject = c ∧ parents = [] := by simpa using h
  obtain rfl : compounds = [subject] := by simpa using congrArg List.reverse hreverse
  obtain ⟨piece, rest, hpiece, hrest, hpieces⟩ :=
    List.forall₂_cons_right_iff.mp (mapM_eq_some_iff.mp hcompounds)
  obtain rfl := List.forall₂_nil_right_iff.mp hrest
  -- there is one piece, all of the tokens
  obtain ⟨all, hall, rfl⟩ := List.map_eq_singleton_iff.mp hpieces
  obtain rfl : all = tokens := by
    have hjoin : [Token.mark '>'].intercalate (tokens.splitOn (.mark '>')) = tokens :=
      List.intercalate_splitOn _
    rw [hall] at hjoin
    simpa using hjoin
  obtain ⟨after, hafter⟩ := eq_cons_of_readCompound hpiece htag
  obtain ⟨blanks, hblanks⟩ := List.rdropWhile_prefix (p := (· == Token.blank))
    (l := all.dropWhile (· == .blank))
  rw [trimBlanks] at hafter
  rw [← hblanks, hafter]
  rfl

/-- By itself on a page, an element passes the tests that any other with its attributes passes. -/
theorem Test.Holds.singleton {t : Test} {x y : Element} (h : t.Holds { elements := [x] } x)
    (hattributes : y.attributes = x.attributes) : t.Holds { elements := [y] } y := by
  have hattribute (name : String) : y.attribute? name = x.attribute? name := by
    rw [Element.attribute?, Element.attribute?, hattributes]
  cases t with
  | nthOfType n =>
    obtain ⟨before, after, hsplit, rfl⟩ := h
    obtain rfl : before = [] := by
      rcases List.append_eq_singleton_iff.mp hsplit.symm with ⟨hnil, -⟩ | ⟨-, hafter⟩
      · exact hnil
      · cases hafter
    exact ⟨[], [], rfl, rfl⟩
  | _ => exact (hattribute _).trans h

/-- **A text that asks for a tag and begins with it** begins with a name. -/
theorem isIdent_of_denotes {tag text : String} {tail : List Char} {p : Element → Prop}
    {attributes : List (String × String)} (htail : IsTail tail)
    (htext : taken text.toList = taken tag.toList ++ tail)
    (hp : ∀ x : Element, x.attributes = attributes → (p x ↔ x.tag = tag))
    (h : Denotes text p) : IsIdent tag.toList := by
  obtain ⟨⟨c, parents⟩, hread, hmatches⟩ := h
  obtain ⟨tokens, hlex, hread⟩ := Option.bind_eq_some_iff.mp hread
  rw [htext] at hlex
  -- an element with the tag, and one with another tag
  let x : Element := { ref := "", tag := tag, attributes := attributes }
  let y : Element := { ref := "", tag := tag ++ " ", attributes := attributes }
  have hmatch := (hmatches { elements := [x] } x List.mem_cons_self).mpr ((hp x rfl).mpr rfl)
  obtain rfl : parents = [] := by
    cases parents with
    | nil => rfl
    | cons above parents =>
      obtain ⟨z, -, ⟨-, hparent⟩, -⟩ := hmatch.2
      cases hparent
  refine isIdent_of_lex htail hlex (head?_of_readSelector hread ?_)
  cases htype : c.type with
  | some g => exact congrArg some (hmatch.1.1 g htype).symm
  | none =>
    have hother : Selector.Matches ⟨c, []⟩ { elements := [y] } y :=
      ⟨⟨by simp [htype], fun t ht => (hmatch.1.2 t ht).singleton rfl⟩, trivial⟩
    have htag : tag ++ " " = tag := (hp y rfl).mp ((hmatches _ y List.mem_cons_self).mp hother)
    simpa using congrArg String.length htag

end Scribe.Css
