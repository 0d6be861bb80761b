import Scribe.Proofs.Text.Literal

/-!
# Reading CSS: the tokens

**The tokens of CSS**, as far as selectors need them. `Scribe.Css.lex` reads a text as the list of
its tokens, after some characters of it were replaced (`Scribe.Css.taken`).

* `Scribe.Css.readEscape` – what a backslash and the characters after it stand for;
* `Scribe.Css.readName`, `Scribe.Css.readString` – names and strings, with their escapes;
* `Scribe.Css.nextToken` – the first token of a text.

Refused are strings that are not closed, numbers that are more than digits, and the end of a markup
comment. Signs and comments are read as single characters, in which no selector is found. Whatever
selector is read here is read in the same way by the full grammar.
-/

namespace Scribe.Css

/-! ### Characters -/

/-- A character as it is taken in: what ends a line is a line feed, and nulls are replaced. -/
def takenChar (c : Char) : Char :=
  if c = '\r' ∨ c = '\x0c' then '\n' else if c = '\x00' then '\ufffd' else c

/-- **A text as it is taken in.** A carriage return and the line feed behind it are one. -/
def taken : List Char → List Char
  | [] => []
  | '\r' :: '\n' :: rest => '\n' :: taken rest
  | c :: rest => takenChar c :: taken rest

/-- The blanks of CSS. -/
def isBlank (c : Char) : Bool :=
  c == ' ' || c == '\t' || c == '\n'

/-- The characters that a name starts with: letters, the underscore and all beyond ASCII. -/
def isNameStart (c : Char) : Bool :=
  c.isAlpha || c == '_' || decide (128 ≤ c.toNat)

/-- The characters of names. -/
def isNameChar (c : Char) : Bool :=
  isNameStart c || c.isDigit || c == '-'

/-! ### Escapes, names and strings -/

/-- Whether a text begins with an escape: a backslash that no line ends after. -/
def isEscape : List Char → Bool
  | '\\' :: rest => rest.head? != some '\n'
  | _ => false

/-- One blank at the front of a text is passed over. -/
def skipBlank : List Char → List Char
  | [] => []
  | c :: rest => if isBlank c then rest else c :: rest

/-- **What an escape stands for**, and what follows it: up to six hexadecimal digits for the
character of this number, or any other character for itself. -/
def readEscape : List Char → Char × List Char
  | [] => ('\ufffd', [])
  | c :: rest =>
    let (n, count) := Text.leadingNumber 16 6 (c :: rest)
    if count = 0 then (c, rest)
    else
      ((if n = 0 then none else Text.charOf? n).getD '\ufffd', skipBlank ((c :: rest).drop count))

/-- Whether a text begins with a name that may stand for itself. -/
def startsName : List Char → Bool
  | [] => false
  | c :: rest =>
    if c = '-' then rest.head?.any (fun d => isNameStart d || d == '-') || isEscape rest
    else isNameStart c || isEscape (c :: rest)

theorem skipBlank_suffix (text : List Char) : skipBlank text <:+ text := by
  cases text with
  | nil => exact List.suffix_rfl
  | cons c text =>
    rw [skipBlank]
    split
    · exact List.suffix_cons c text
    · exact List.suffix_rfl

/-- What follows an escape is what follows its first character, or less. -/
theorem readEscape_suffix (c : Char) (rest : List Char) : (readEscape (c :: rest)).2 <:+ rest := by
  rw [readEscape]
  dsimp only
  split
  · exact List.suffix_rfl
  · next hcount =>
    obtain ⟨n, hn⟩ := Nat.exists_eq_succ_of_ne_zero hcount
    rw [hn, List.drop_succ_cons]
    exact (skipBlank_suffix _).trans (List.drop_suffix n rest)

theorem length_readEscape_le (text : List Char) : (readEscape text).2.length ≤ text.length := by
  cases text with
  | nil => exact le_rfl
  | cons c rest => exact (readEscape_suffix c rest).length_le.trans (Nat.le_succ _)

/-- **Reads a name**: as many characters of names and escapes as there are, and what follows. -/
def readName : List Char → List Char × List Char
  | [] => ([], [])
  | c :: rest =>
    if isNameChar c then (c :: (readName rest).1, (readName rest).2)
    else if isEscape (c :: rest) then
      have : (readEscape rest).2.length ≤ rest.length := length_readEscape_le rest
      ((readEscape rest).1 :: (readName (readEscape rest).2).1, (readName (readEscape rest).2).2)
    else ([], c :: rest)
termination_by text => text.length

/-- **Reads a string** from behind its opening mark, and what follows the closing one. An escaped
line end stands for nothing; one that is not escaped is refused. -/
def readString (mark : Char) : List Char → Option (List Char × List Char)
  | [] => none
  | c :: rest =>
    if c = mark then some ([], rest)
    else if c = '\n' then none
    else if c = '\\' then
      have : (readEscape rest).2.length ≤ rest.length := length_readEscape_le rest
      if rest.head? = some '\n' then readString mark rest.tail
      else (readString mark (readEscape rest).2).map fun r => ((readEscape rest).1 :: r.1, r.2)
    else (readString mark rest).map fun r => (c :: r.1, r.2)
termination_by text => text.length

/-! ### Tokens -/

/-- **A token.** -/
inductive Token where
  /-- Blanks. -/
  | blank
  /-- A name. -/
  | ident (name : String)
  /-- A name and the bracket after it. -/
  | function (name : String)
  /-- A name after a number sign, and whether it may also stand for itself. -/
  | hash (name : String) (isIdent : Bool)
  /-- A string. -/
  | string (value : String)
  /-- A number of digits alone. -/
  | number (n : ℕ)
  /-- Any other character. -/
  | mark (c : Char)
  deriving Repr, DecidableEq

/-- A name, with the bracket after it if there is one. -/
def nameToken (text : List Char) : Token × List Char :=
  let (name, rest) := readName text
  if rest.head? = some '(' then (.function (String.ofList name), rest.tail)
  else (.ident (String.ofList name), rest)

/-- A number, unless it goes on after its digits. -/
def numberToken (text : List Char) : Option (Token × List Char) :=
  let digits := text.takeWhile Char.isDigit
  let rest := text.dropWhile Char.isDigit
  if rest.head? = some '.' ∨ rest.head? = some '%' ∨ startsName rest = true then none
  else some (.number (Nat.ofDigitChars 10 digits 0), rest)

/-- **The first token of a text**, and what follows it. -/
def nextToken (c : Char) (rest : List Char) : Option (Token × List Char) :=
  if isBlank c then some (.blank, rest.dropWhile isBlank)
  else if c = '"' ∨ c = '\'' then
    (readString c rest).map fun r => (.string (String.ofList r.1), r.2)
  else if c = '#' then
    if rest.head?.any isNameChar || isEscape rest then
      some (.hash (String.ofList (readName rest).1) (startsName rest), (readName rest).2)
    else some (.mark c, rest)
  else if c.isDigit then numberToken (c :: rest)
  else if c = '-' ∧ rest.take 2 = ['-', '>'] then none
  else if startsName (c :: rest) then some (nameToken (c :: rest))
  else some (.mark c, rest)

theorem length_readName_le (text : List Char) : (readName text).2.length ≤ text.length := by
  induction text using readName.induct with
  | case1 => simp [readName]
  | case2 c rest hc ih =>
    rw [readName, if_pos hc]
    exact ih.trans (Nat.le_succ _)
  | case3 c rest hc hescape hle ih =>
    rw [readName, if_neg hc, if_pos hescape]
    exact (Nat.le_trans ih hle).trans (Nat.le_succ _)
  | case4 c rest hc hescape => rw [readName, if_neg hc, if_neg hescape]

/-- A name that may stand for itself has a character at least. -/
theorem length_readName_lt {text : List Char} (h : startsName text = true) :
    (readName text).2.length < text.length := by
  cases text with
  | nil => cases h
  | cons c rest =>
    rw [readName]
    split
    · exact Nat.lt_succ_of_le (length_readName_le rest)
    split
    · exact Nat.lt_succ_of_le ((length_readName_le _).trans (length_readEscape_le rest))
    · next hc hescape =>
      rw [startsName] at h
      split at h
      · next hdash => simp [hdash, isNameChar] at hc
      · simp only [isNameChar, Bool.or_eq_true, not_or] at hc h
        exact (h.elim hc.1.1 hescape).elim

theorem length_readString_lt {mark : Char} {text : List Char} {r : List Char × List Char}
    (h : readString mark text = some r) : r.2.length < text.length := by
  induction text using readString.induct mark generalizing r with
  | case1 => simp [readString] at h
  | case2 rest =>
    rw [readString, if_pos rfl] at h
    cases h
    exact Nat.lt_succ_self _
  | case3 rest hmark =>
    rw [readString, if_neg hmark, if_pos rfl] at h
    cases h
  | case4 rest hle hend hmark hne ih =>
    rw [readString, if_neg hmark, if_neg hne, if_pos rfl, if_pos hend] at h
    have := ih h
    simp only [List.length_tail, List.length_cons] at this ⊢
    omega
  | case5 rest hle hend hmark hne ih =>
    rw [readString, if_neg hmark, if_neg hne, if_pos rfl, if_neg hend] at h
    obtain ⟨after, hafter, rfl⟩ := Option.map_eq_some_iff.mp h
    exact (Nat.lt_of_lt_of_le (ih hafter) hle).trans (Nat.lt_succ_self _)
  | case6 c rest hmark hne hplain ih =>
    rw [readString, if_neg hmark, if_neg hne, if_neg hplain] at h
    obtain ⟨after, hafter, rfl⟩ := Option.map_eq_some_iff.mp h
    exact (ih hafter).trans (Nat.lt_succ_self _)

theorem length_nameToken_lt {text : List Char} (h : startsName text = true) :
    (nameToken text).2.length < text.length := by
  have hlt := length_readName_lt h
  rw [nameToken]
  dsimp only
  split
  · rw [List.length_tail]
    omega
  · exact hlt

/-- **A token takes at least one character.** -/
theorem length_nextToken_le {c : Char} {rest : List Char} {r : Token × List Char}
    (h : nextToken c rest = some r) : r.2.length ≤ rest.length := by
  rw [nextToken] at h
  split at h
  · cases h
    exact List.length_dropWhile_le ..
  split at h
  · obtain ⟨after, hafter, rfl⟩ := Option.map_eq_some_iff.mp h
    exact (length_readString_lt hafter).le
  split at h
  · split at h
    · cases h
      exact length_readName_le rest
    · cases h
      exact le_rfl
  split at h
  · next hdigit =>
    rw [numberToken] at h
    split at h
    · cases h
    · cases h
      rw [List.dropWhile_cons_of_pos hdigit]
      exact List.length_dropWhile_le ..
  split at h
  · cases h
  split at h
  · next hstarts =>
    cases h
    exact Nat.le_of_lt_succ (length_nameToken_lt hstarts)
  · cases h
    exact le_rfl

/-- **The tokens of a text.** -/
def lex : List Char → Option (List Token)
  | [] => some []
  | c :: rest =>
    match h : nextToken c rest with
    | none => none
    | some (t, after) =>
      have : after.length ≤ rest.length := length_nextToken_le h
      (lex after).map (t :: ·)
termination_by text => text.length

example : lex "a\\62  > #x\\a y:b(7)[c=\"\\\\\\a b\"]".toList =
    some [.ident "ab", .blank, .mark '>', .blank, .hash "x\ny" true, .mark ':', .function "b",
      .number 7, .mark ')', .mark '[', .ident "c", .mark '=', .string "\\\nb", .mark ']'] := by
  decide +kernel

/-! ### Texts that are taken in as they are -/

/-- Without carriage returns every character is taken in by itself. -/
theorem taken_eq_map {text : List Char} (h : '\r' ∉ text) : taken text = text.map takenChar := by
  induction text with
  | nil => rfl
  | cons c rest ih =>
    obtain ⟨hc, hrest⟩ := not_or.mp (mt List.mem_cons.mpr h)
    rw [List.map_cons, ← ih hrest, taken]
    rintro _ rfl -
    exact hc rfl

/-- Without line feeds, too: no carriage return has one behind it. -/
theorem taken_eq_map_of_no_lineFeed {text : List Char} (h : '\n' ∉ text) :
    taken text = text.map takenChar := by
  induction text with
  | nil => rfl
  | cons c rest ih =>
    obtain ⟨-, hrest⟩ := not_or.mp (mt List.mem_cons.mpr h)
    rw [List.map_cons, ← ih hrest, taken]
    rintro after rfl rfl
    exact hrest List.mem_cons_self

/-- A text is taken in as it is if each of its characters is. -/
theorem taken_eq_self {text : List Char} (h : ∀ c ∈ text, takenChar c = c) : taken text = text := by
  have hreturn : '\r' ∉ text := fun hmem => absurd (h _ hmem) (by decide)
  rw [taken_eq_map hreturn]
  exact (List.map_congr_left h).trans (List.map_id' text)

/-! ### Names that are read as they are -/

/-- A character that is no hexadecimal digit stands for itself after a backslash. -/
theorem readEscape_of_not_hex {c : Char} (h : Text.digitIn? 16 c = none) (rest : List Char) :
    readEscape (c :: rest) = (c, rest) := by
  have hcount : (Text.leadingNumber 16 6 (c :: rest)).2 = 0 := by
    simp [Text.leadingNumber, h]
  rw [readEscape]
  exact if_pos hcount

/-- **A name that stands for itself**, without escapes. -/
structure IsIdent (name : List Char) : Prop where
  starts : startsName name = true
  plain : ∀ c ∈ name, isNameChar c = true

instance (name : List Char) : Decidable (IsIdent name) :=
  decidable_of_iff (startsName name = true ∧ name.all isNameChar = true)
    ⟨fun h => ⟨h.1, List.all_eq_true.mp h.2⟩, fun h => ⟨h.starts, List.all_eq_true.mpr h.plain⟩⟩

/-- What a name starts with, and characters of names make a name. -/
theorem isIdent_cons {c : Char} {rest : List Char} (hc : isNameStart c = true)
    (hrest : ∀ d ∈ rest, isNameChar d = true) : IsIdent (c :: rest) := by
  have hdash : c ≠ '-' := by
    rintro rfl
    exact absurd hc (by decide)
  refine ⟨?_, List.forall_mem_cons.mpr ⟨?_, hrest⟩⟩
  · rw [startsName, if_neg hdash, hc, Bool.true_or]
  · rw [isNameChar, hc, Bool.true_or, Bool.true_or]

/-- **What a name ends at**: the end of the text, or a character of which no name is made. The
closing angle bracket is left out, which two dashes make a token with. -/
def IsBreak (rest : List Char) : Prop :=
  ∀ c ∈ rest.head?, isNameChar c = false ∧ c ≠ '\\' ∧ c ≠ '>'

theorem isBreak_nil : IsBreak [] := by
  intro c hc
  cases hc

theorem isBreak_cons {c : Char} (h : isNameChar c = false ∧ c ≠ '\\' ∧ c ≠ '>')
    (rest : List Char) : IsBreak (c :: rest) := by
  intro d hd
  obtain rfl := Option.some.inj hd
  exact h

theorem isEscape_cons_of_ne {c : Char} (h : c ≠ '\\') (rest : List Char) :
    isEscape (c :: rest) = false := by
  rw [isEscape]
  rintro after heq
  exact h (List.cons.inj heq).1

theorem IsBreak.isEscape {rest : List Char} (h : IsBreak rest) : isEscape rest = false := by
  cases rest with
  | nil => rfl
  | cons c rest => exact isEscape_cons_of_ne (h c rfl).2.1 rest

/-- A name is read up to where it ends. -/
theorem readName_append {name rest : List Char} (hname : ∀ c ∈ name, isNameChar c = true)
    (hrest : IsBreak rest) : readName (name ++ rest) = (name, rest) := by
  induction name with
  | nil =>
    cases rest with
    | nil => simp [readName]
    | cons c rest =>
      have hc := (hrest c rfl).1
      rw [List.nil_append, readName, if_neg (by simp [hc]), if_neg (by simp [hrest.isEscape])]
  | cons c name ih =>
    have hc := hname c List.mem_cons_self
    rw [List.cons_append, readName, if_pos hc,
      ih fun d hd => hname d (List.mem_cons_of_mem c hd)]

/-- What follows a name does not change how it starts. -/
theorem IsIdent.startsName_append {name : List Char} (h : IsIdent name) (rest : List Char) :
    startsName (name ++ rest) = true := by
  obtain ⟨hstarts, hplain⟩ := h
  -- a name without escapes has no backslash
  have hescape {text : List Char} (htext : ∀ c ∈ text, isNameChar c = true) :
      isEscape text = false := by
    cases text with
    | nil => rfl
    | cons c text =>
      refine isEscape_cons_of_ne ?_ text
      rintro rfl
      exact absurd (htext _ List.mem_cons_self) (by decide)
  cases name with
  | nil => cases hstarts
  | cons c name =>
    rw [List.cons_append]
    rw [startsName] at hstarts ⊢
    rw [hescape hplain] at hstarts
    rw [hescape fun d hd => hplain d (List.mem_cons_of_mem c hd)] at hstarts
    split
    · next hdash =>
      rw [if_pos hdash, Bool.or_false] at hstarts
      cases name with
      | nil => cases hstarts
      | cons d name => exact Bool.or_eq_true_iff.mpr (.inl hstarts)
    · next hdash =>
      rw [if_neg hdash, Bool.or_false] at hstarts
      rw [hstarts, Bool.true_or]

/-- A digit starts no name. -/
theorem isDigit_of_isNameStart {c : Char} (h : isNameStart c = true) : c.isDigit = false := by
  simp only [isNameStart, Char.isAlpha, Char.isUpper, Char.isLower, Bool.or_eq_true,
    Bool.and_eq_true, decide_eq_true_eq, beq_iff_eq, ge_iff_le] at h
  by_contra hdigit
  simp only [Bool.not_eq_false, Char.isDigit, Bool.and_eq_true, decide_eq_true_eq] at hdigit
  obtain ⟨hzero, hnine⟩ := hdigit
  have hle : c.toNat ≤ 57 := hnine
  rcases h with ((⟨h, -⟩ | ⟨h, -⟩) | rfl) | h
  · have hupper : 65 ≤ c.toNat := h
    omega
  · have hlower : 97 ≤ c.toNat := h
    omega
  · exact absurd hle (by decide)
  · omega

theorem ne_of_isNameChar {c d : Char} (hc : isNameChar c = true) (hd : isNameChar d = false) :
    c ≠ d := by
  rintro rfl
  exact Bool.false_ne_true (hd.symm.trans hc)

theorem isBlank_of_isNameChar {c : Char} (h : isNameChar c = true) : isBlank c = false := by
  rw [isBlank, beq_eq_false_iff_ne.mpr (ne_of_isNameChar h (by decide)),
    beq_eq_false_iff_ne.mpr (ne_of_isNameChar h (by decide)),
    beq_eq_false_iff_ne.mpr (ne_of_isNameChar h (by decide))]
  rfl

theorem takenChar_of_isNameChar {c : Char} (h : isNameChar c = true) : takenChar c = c := by
  have hne {d : Char} (hd : isNameChar d = false) : c ≠ d := ne_of_isNameChar h hd
  rw [takenChar, if_neg (not_or.mpr ⟨hne (by decide), hne (by decide)⟩), if_neg (hne (by decide))]

/-- A name is taken in as it is. -/
theorem map_takenChar_of_isNameChar {name : List Char} (h : ∀ c ∈ name, isNameChar c = true) :
    name.map takenChar = name :=
  (List.map_congr_left fun c hc => takenChar_of_isNameChar (h c hc)).trans (List.map_id' name)

/-! ### Tokens that are read as written -/

theorem lex_cons {c : Char} {rest after : List Char} {t : Token}
    (h : nextToken c rest = some (t, after)) : lex (c :: rest) = (lex after).map (t :: ·) := by
  rw [lex]
  split
  · next hnone => rw [hnone] at h; cases h
  · next hsome =>
    rw [hsome] at h
    cases h
    rfl

/-- The characters of selectors that are tokens by themselves. -/
def marks : List Char :=
  ['>', '*', '=', '[', ']', ')', ':']

theorem lex_mark {c : Char} (h : c ∈ marks) (rest : List Char) :
    lex (c :: rest) = (lex rest).map (.mark c :: ·) := by
  apply lex_cons
  obtain ⟨hblank, hdouble, hsingle, hhash, hdigit, hdash, hname, hslash⟩ : isBlank c = false ∧
      c ≠ '"' ∧ c ≠ '\'' ∧ c ≠ '#' ∧ c.isDigit = false ∧ c ≠ '-' ∧ isNameStart c = false ∧
        c ≠ '\\' := by
    fin_cases h <;> decide
  have hstarts : startsName (c :: rest) = false := by
    rw [startsName, if_neg hdash, hname, isEscape_cons_of_ne hslash]
    rfl
  simp [nextToken, hblank, hdouble, hsingle, hhash, hdigit, hdash, hstarts]

theorem lex_blank {c : Char} (hc : isBlank c = true) {rest : List Char}
    (h : ∀ d ∈ rest.head?, isBlank d = false) : lex (c :: rest) = (lex rest).map (.blank :: ·) := by
  apply lex_cons
  have hdrop : rest.dropWhile isBlank = rest := by
    cases rest with
    | nil => rfl
    | cons d rest => rw [List.dropWhile_cons_of_neg (by simp [h d rfl])]
  rw [nextToken, if_pos hc, hdrop]

/-- **A name is a token of its own**, whatever it is followed by. -/
theorem IsIdent.nextToken_cons {c : Char} {name rest : List Char} (h : IsIdent (c :: name))
    (hrest : IsBreak rest) :
    nextToken c (name ++ rest) = some (nameToken (c :: (name ++ rest))) := by
  have hc := h.plain c List.mem_cons_self
  have hne {d : Char} (hd : isNameChar d = false) : c ≠ d := ne_of_isNameChar hc hd
  have hblank := isBlank_of_isNameChar hc
  have hdigit : c.isDigit = false := by
    by_cases hdash : c = '-'
    · rw [hdash]
      rfl
    · have hstarts := h.starts
      rw [startsName, if_neg hdash, isEscape_cons_of_ne (hne (by decide)), Bool.or_false] at hstarts
      exact isDigit_of_isNameStart hstarts
  have hcomment : ¬(c = '-' ∧ (name ++ rest).take 2 = ['-', '>']) := by
    rintro ⟨rfl, htake⟩
    have hnext := h.plain
    rcases name with _ | ⟨d, _ | ⟨e, name⟩⟩
    · exact absurd h.starts (by decide)
    · cases rest with
      | nil => cases htake
      | cons e rest => exact (hrest e rfl).2.2 (by simp_all)
    · have he : isNameChar e = true := h.plain e (by simp)
      obtain rfl : e = '>' := by simp_all
      exact absurd he (by decide)
  have hstarts : startsName (c :: (name ++ rest)) = true := h.startsName_append rest
  rw [nextToken, if_neg (by simp [hblank]), if_neg (not_or.mpr ⟨hne (by decide), hne (by decide)⟩),
    if_neg (hne (by decide)), if_neg (by simp [hdigit]), if_neg hcomment, if_pos hstarts]

theorem lex_ident {name rest : List Char} (h : IsIdent name) (hrest : IsBreak rest)
    (hbracket : rest.head? ≠ some '(') :
    lex (name ++ rest) = (lex rest).map (.ident (String.ofList name) :: ·) := by
  cases name with
  | nil => exact absurd h.starts (by decide)
  | cons c name =>
    have hname : readName (c :: (name ++ rest)) = (c :: name, rest) :=
      readName_append h.plain hrest
    rw [List.cons_append]
    apply lex_cons
    rw [h.nextToken_cons hrest, nameToken, hname]
    dsimp only
    rw [if_neg hbracket]

theorem lex_function {name : List Char} (h : IsIdent name) (rest : List Char) :
    lex (name ++ '(' :: rest) = (lex rest).map (.function (String.ofList name) :: ·) := by
  have hrest : IsBreak ('(' :: rest) := isBreak_cons (by decide) rest
  cases name with
  | nil => exact absurd h.starts (by decide)
  | cons c name =>
    have hname : readName (c :: (name ++ '(' :: rest)) = (c :: name, '(' :: rest) :=
      readName_append h.plain hrest
    rw [List.cons_append]
    apply lex_cons
    rw [h.nextToken_cons hrest, nameToken, hname]
    rfl

theorem lex_hash {name rest : List Char} (h : IsIdent name) (hrest : IsBreak rest) :
    lex ('#' :: (name ++ rest)) = (lex rest).map (.hash (String.ofList name) true :: ·) := by
  apply lex_cons
  have hname : (name ++ rest).head?.any isNameChar = true := by
    cases name with
    | nil => exact absurd h.starts (by decide)
    | cons c name => exact h.plain c List.mem_cons_self
  rw [nextToken, if_neg (by decide), if_neg (by decide), if_pos rfl, hname, Bool.true_or,
    if_pos rfl, readName_append h.plain hrest, h.startsName_append]

/-- A string is a token of its own, if it is closed. -/
theorem lex_string (text : List Char) :
    lex ('"' :: text) = (readString '"' text).bind fun r =>
      (lex r.2).map (.string (String.ofList r.1) :: ·) := by
  have hnext : nextToken '"' text =
      (readString '"' text).map fun r => (.string (String.ofList r.1), r.2) := by
    rw [nextToken, if_neg (by decide), if_pos (.inl rfl)]
  cases hstring : readString '"' text with
  | none =>
    rw [hstring] at hnext
    rw [lex]
    split
    · rfl
    · next hsome =>
      rw [hnext] at hsome
      cases hsome
  | some r =>
    rw [hstring] at hnext
    exact lex_cons hnext

/-- A number in front of a closing bracket. -/
theorem lex_number (n : ℕ) (rest : List Char) :
    lex (Nat.toDigits 10 n ++ ')' :: rest) =
      (lex (')' :: rest)).map (.number n :: ·) := by
  have hdigits : ∀ c ∈ Nat.toDigits 10 n, c.isDigit = true := fun c hc =>
    Nat.isDigit_of_mem_toDigits (by decide) (by decide) hc
  have htake : (Nat.toDigits 10 n ++ ')' :: rest).takeWhile Char.isDigit = Nat.toDigits 10 n := by
    rw [List.takeWhile_append_of_pos hdigits]
    exact List.append_nil _
  have hdrop : (Nat.toDigits 10 n ++ ')' :: rest).dropWhile Char.isDigit = ')' :: rest := by
    rw [List.dropWhile_append_of_pos hdigits]
    rfl
  have hnumber : numberToken (Nat.toDigits 10 n ++ ')' :: rest) =
      some (.number n, ')' :: rest) := by
    rw [numberToken, htake, hdrop, Nat.ofDigitChars_ten_toDigits]
    rfl
  obtain ⟨c, digits, hn⟩ : ∃ c digits, Nat.toDigits 10 n = c :: digits :=
    List.exists_cons_of_ne_nil Nat.toDigits_ne_nil
  have hc : c.isDigit = true := hdigits c (by simp [hn])
  have hchar : isNameChar c = true := by simp [isNameChar, hc]
  have hne {d : Char} (hd : isNameChar d = false) : c ≠ d := ne_of_isNameChar hchar hd
  have hblank := isBlank_of_isNameChar hchar
  rw [hn, List.cons_append] at hnumber ⊢
  apply lex_cons
  rw [nextToken, if_neg (by simp [hblank]), if_neg (not_or.mpr ⟨hne (by decide), hne (by decide)⟩),
    if_neg (hne (by decide)), if_pos hc, hnumber]

end Scribe.Css
