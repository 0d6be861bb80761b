import Scribe.Program.Language
import Mathlib.Data.List.Basic
import Mathlib.Data.List.TakeWhile

/-!
# Reading a program

What a line of a generated program does to variables, read off its text, in the same way for all
languages:

* a line **calls** the page whose name is the last one in front of its first point;
* a line **declares** the variables that stand, in front of its first point, to the left of an
  equals sign or an arrow: those that it assigns, and the parameters of a function;
* a line **defines a function** if it begins with `void` and the name of the function.

`Scribe.Program.read` reads a line. `Scribe.Program.ProperlyScoped` and
`Scribe.Program.DeclaredOnce` say of the lines of a program that pages are declared before they are
called, and that nothing is declared twice.
-/

namespace Scribe.Program

/-! ### Names -/

/-- What holds of the characters of a text is decided over the text, not over all characters. -/
instance decidableForallMem (text : List Char) (p : Char → Prop) [DecidablePred p] :
    Decidable (∀ c ∈ text, p c) :=
  List.decidableBAll p text

/-- The characters of names. -/
def isNameChar (c : Char) : Bool :=
  c.isAlphanum || c == '_'

/-- **The names in a text**: its longest pieces of such characters. -/
def namesIn (text : List Char) : List (List Char) :=
  (text.splitOnP fun c => !isNameChar c).filter fun w => !w.isEmpty

/-- Whether a name is a given word, with a number behind it or none. -/
def isOver (base : String) (name : String) : Bool :=
  base.toList.isPrefixOf name.toList && (name.toList.drop base.toList.length).all Char.isDigit

/-- Whether a name is one of a page. -/
def isPageName (name : String) : Bool :=
  isOver rootAlias name

/-- Whether a name is one of a page or a download. -/
def isVariable (name : String) : Bool :=
  isPageName name || isOver "download" name

/-! ### Lines -/

/-- **What is read off a line.** -/
structure Reading where
  /-- How far the line is indented. -/
  depth : ℕ
  /-- The page on which it calls a method. -/
  called : Option String
  /-- The variables that it declares. -/
  declared : List String
  /-- The functions that it defines. -/
  functions : List String
  deriving Repr, DecidableEq

/-- Equals signs, and the points of arrows. -/
def isBinder (c : Char) : Bool :=
  c == '=' || c == '>'

/-- The function that names at the beginning of a line define. -/
def functionsOf : List (List Char) → List String
  | first :: second :: _ => if first = "void".toList then [String.ofList second] else []
  | _ => []

/-- The part of a text in front of its first point. -/
def beforePoint (text : List Char) : List Char :=
  text.takeWhile (· != '.')

/-- What is read off a text, its indent aside. -/
def readText (text : List Char) : Option String × List String × List String :=
  let head := beforePoint text
  (if text.contains '.' then
      ((namesIn head).getLast?.map String.ofList).filter isPageName else none,
    if head.any isBinder then
      ((namesIn (head.takeWhile (!isBinder ·))).map String.ofList).filter isVariable else [],
    functionsOf (namesIn head))

/-- **Reads a line.** -/
def read (line : String) : Reading :=
  let (called, declared, functions) := readText line.toList
  ⟨(line.toList.takeWhile (· == ' ')).length, called, declared, functions⟩

/-! ### Programs -/

/-- **Each page on which a line calls a method is declared** on an earlier line, which is not
indented further than the statements of the program. -/
def ProperlyScoped (margin : ℕ) (lines : List String) : Prop :=
  ∀ before line after, lines = before ++ line :: after → ∀ page ∈ (read line).called,
    ∃ earlier ∈ before, page ∈ (read earlier).declared ∧ (read earlier).depth ≤ margin

/-- **No variable and no function is declared twice.** -/
def DeclaredOnce (lines : List String) : Prop :=
  (lines.flatMap fun line => (read line).declared).Nodup ∧
    (lines.flatMap fun line => (read line).functions).Nodup

example : read "  const page1 = await page.waitForEvent('popup');" =
    ⟨2, some "page", ["page1"], []⟩ := by
  decide

example : read "def test_example(page: Page) -> None:" = ⟨0, none, ["page"], []⟩ := by
  decide

/-! ### Names in texts -/

section

variable {a b w : List Char}

theorem namesIn_nil : namesIn [] = [] := rfl

theorem namesIn_append_cons {c : Char} (hc : isNameChar c = false) :
    namesIn (a ++ c :: b) = namesIn a ++ namesIn b := by
  rw [namesIn, List.splitOnP_append_cons _ _ (by simp [hc]), List.filter_append]
  rfl

/-- A text that ends where a name cannot go on. -/
def endsName (text : List Char) : Bool :=
  text.getLast?.all (!isNameChar ·)

theorem namesIn_append_of_endsName (ha : endsName a = true) :
    namesIn (a ++ b) = namesIn a ++ namesIn b := by
  rcases List.eq_nil_or_concat a with rfl | ⟨l, c, rfl⟩
  · rfl
  · have hc : isNameChar c = false := by simpa [endsName] using ha
    rw [List.concat_eq_append, List.append_assoc, List.singleton_append, namesIn_append_cons hc,
      namesIn_append_cons hc, namesIn_nil, List.append_nil]

/-- A text that begins where a name cannot go on. -/
def startsName (text : List Char) : Bool :=
  text.head?.all (!isNameChar ·)

theorem namesIn_append_of_startsName (hb : startsName b = true) :
    namesIn (a ++ b) = namesIn a ++ namesIn b := by
  cases b with
  | nil => simp [namesIn_nil]
  | cons c b =>
    have hc : isNameChar c = false := by simpa [startsName] using hb
    have hcons : namesIn (c :: b) = namesIn b := by
      rw [← List.nil_append (c :: b), namesIn_append_cons hc]
      rfl
    rw [namesIn_append_cons hc, hcons]

/-- **A name.** -/
structure IsName (w : List Char) : Prop where
  chars : ∀ c ∈ w, isNameChar c = true
  ne_nil : w ≠ []

theorem IsName.namesIn (h : IsName w) : namesIn w = [w] := by
  have hw := h.ne_nil
  rw [Program.namesIn, List.splitOnP_eq_singleton fun c hc => by simp [h.chars c hc]]
  simp [hw]

theorem not_point_of_isNameChar {c : Char} (h : isNameChar c = true) : c ≠ '.' := by
  rintro rfl
  exact absurd h (by decide)

theorem not_isBinder_of_isNameChar {c : Char} (h : isNameChar c = true) : isBinder c = false := by
  rw [isBinder, Bool.or_eq_false_iff, beq_eq_false_iff_ne, beq_eq_false_iff_ne]
  constructor <;> rintro rfl <;> exact absurd h (by decide)

theorem isNameChar_of_isDigit {c : Char} (h : c.isDigit = true) : isNameChar c = true := by
  simp [isNameChar, Char.isAlphanum, h]

end

/-! ### Variables -/

theorem isOver_iff {base name : String} :
    isOver base name = true ↔
      ∃ digits, name.toList = base.toList ++ digits ∧ ∀ c ∈ digits, c.isDigit = true := by
  rw [isOver, Bool.and_eq_true, List.isPrefixOf_iff_prefix, List.all_eq_true]
  constructor
  · rintro ⟨⟨digits, hdigits⟩, hall⟩
    refine ⟨digits, hdigits.symm, fun c hc => hall c ?_⟩
    rw [← hdigits, List.drop_left]
    exact hc
  · rintro ⟨digits, hdigits, hall⟩
    refine ⟨⟨digits, hdigits.symm⟩, fun c hc => hall c ?_⟩
    rw [hdigits, List.drop_left] at hc
    exact hc

theorem isName_of_isOver {base name : String} (hbase : IsName base.toList)
    (h : isOver base name = true) : IsName name.toList := by
  obtain ⟨digits, hdigits, hall⟩ := isOver_iff.mp h
  refine ⟨fun c hc => ?_, fun hnil => ?_⟩
  · rw [hdigits, List.mem_append] at hc
    rcases hc with hc | hc
    · exact hbase.chars c hc
    · exact isNameChar_of_isDigit (hall c hc)
  · rw [hdigits, List.append_eq_nil_iff] at hnil
    exact hbase.ne_nil hnil.1

theorem isName_of_isPageName {name : String} (h : isPageName name = true) : IsName name.toList :=
  isName_of_isOver ⟨by decide, by decide⟩ h

theorem isName_of_isVariable {name : String} (h : isVariable name = true) : IsName name.toList := by
  rcases Bool.or_eq_true _ _ ▸ h with hpage | hdownload
  · exact isName_of_isPageName hpage
  · exact isName_of_isOver ⟨by decide, by decide⟩ hdownload

theorem ne_underscore_of_isDigit {c : Char} (h : c.isDigit = true) : c ≠ '_' := by
  rintro rfl
  exact absurd h (by decide)

/-- No page is named with an underscore. -/
theorem ne_underscore_of_isPageName {page : String} (h : isPageName page = true) :
    ∀ c ∈ page.toList, c ≠ '_' := by
  obtain ⟨digits, hdigits, hall⟩ := isOver_iff.mp h
  intro c hc
  rw [hdigits, List.mem_append] at hc
  rcases hc with hc | hc
  · revert c
    decide
  · exact ne_underscore_of_isDigit (hall c hc)

/-- No name is that of both a page and a download. -/
theorem not_isPageName_of_isOver_download {name : String} (h : isOver "download" name = true) :
    isPageName name = false := by
  obtain ⟨digits, hdigits, -⟩ := isOver_iff.mp h
  rw [isPageName, isOver, hdigits]
  rfl

/-! ### Lines that call a page -/

/-- A line that calls no page, declares nothing and defines nothing. -/
def Reading.IsSilent (r : Reading) : Prop :=
  r.called = none ∧ r.declared = [] ∧ r.functions = []

instance (r : Reading) : Decidable r.IsSilent :=
  inferInstanceAs (Decidable (_ ∧ _ ∧ _))

/-- **What may stand in front of a page** on which a method is called: words that bind nothing. -/
def isLead (lead : String) : Bool :=
  lead.toList.all (fun c => c != '.' && !isBinder c) && endsName lead.toList &&
    (namesIn lead.toList).head? != some "void".toList

theorem beforePoint_append {head rest : List Char} (h : '.' ∉ head) :
    beforePoint (head ++ '.' :: rest) = head := by
  rw [beforePoint, List.takeWhile_append_of_pos fun c hc => ?_]
  · simp
  · simpa using ne_of_mem_of_not_mem hc h

theorem isLead_iff {lead : String} :
    isLead lead = true ↔ (∀ c ∈ lead.toList, c ≠ '.' ∧ isBinder c = false) ∧
      endsName lead.toList = true ∧ (namesIn lead.toList).head? ≠ some "void".toList := by
  simp [isLead, and_assoc]

/-- Variables do not begin a definition. -/
theorem ne_void_of_isVariable {name : String} (h : isVariable name = true) :
    name.toList ≠ "void".toList := by
  intro hvoid
  rw [String.toList_inj.mp hvoid] at h
  exact absurd h (by decide)

theorem functionsOf_of_head? {names : List (List Char)} (h : names.head? ≠ some "void".toList) :
    functionsOf names = [] := by
  unfold functionsOf
  split
  · next first second rest =>
    rw [if_neg]
    simpa using h
  · rfl

/-- Variables define no function, whatever may stand in front of them. -/
theorem functionsOf_append {names more : List (List Char)} {v : String}
    (hnames : names.head? ≠ some "void".toList) (hv : isVariable v = true) :
    functionsOf (names ++ v.toList :: more) = [] := by
  refine functionsOf_of_head? ?_
  cases names with
  | nil => simpa using ne_void_of_isVariable hv
  | cons first rest => exact hnames

/-- A text that begins with a point. -/
def IsPointed (text : String) : Prop :=
  text.toList.head? = some '.'

instance (text : String) : Decidable (IsPointed text) :=
  inferInstanceAs (Decidable (_ = _))

theorem IsPointed.eq_cons {text : String} (h : IsPointed text) :
    ∃ more, text.toList = '.' :: more := by
  cases htext : text.toList with
  | nil => simp [IsPointed, htext] at h
  | cons c more =>
    obtain rfl : c = '.' := by simpa [IsPointed, htext] using h
    exact ⟨more, rfl⟩

theorem IsPointed.append {text : String} (h : IsPointed text) (more : String) :
    IsPointed (text ++ more) := by
  obtain ⟨rest, hrest⟩ := h.eq_cons
  simp [IsPointed, String.toList_append, hrest]

/-- **A call**: what is read off a page with a method behind it. -/
theorem readText_call {lead page rest : String} (hlead : isLead lead = true)
    (hpage : isPageName page = true) (hrest : IsPointed rest) :
    readText (lead ++ page ++ rest).toList = (some page, [], []) := by
  obtain ⟨hchars, hends, hvoid⟩ := isLead_iff.mp hlead
  obtain ⟨more, hmore⟩ := hrest.eq_cons
  have hname := isName_of_isPageName hpage
  have htext : (lead ++ page ++ rest).toList =
      (lead.toList ++ page.toList) ++ '.' :: more := by
    simp [String.toList_append, hmore]
  have hpoint : '.' ∉ lead.toList ++ page.toList := by
    rw [List.mem_append]
    rintro (hc | hc)
    · exact (hchars _ hc).1 rfl
    · exact not_point_of_isNameChar (hname.chars _ hc) rfl
  -- nothing in front of the point binds, so nothing is declared
  have hbinder : (lead.toList ++ page.toList).any isBinder = false := by
    rw [List.any_eq_false]
    intro c hc
    rcases List.mem_append.mp hc with hc | hc
    · simp [(hchars c hc).2]
    · simp [not_isBinder_of_isNameChar (hname.chars c hc)]
  have hnames : namesIn (lead.toList ++ page.toList) = namesIn lead.toList ++ [page.toList] := by
    rw [namesIn_append_of_endsName hends, hname.namesIn]
  have hfunctions : functionsOf (namesIn lead.toList ++ [page.toList]) = [] :=
    functionsOf_append hvoid (by simp [isVariable, hpage])
  rw [htext, readText]
  simp only [beforePoint_append hpoint, hbinder, hnames, hfunctions]
  simp [hpage, Option.filter]

/-! ### Lines that declare variables -/

/-- **What may stand between variables and the value** that they are given: an equals sign, and
words that are no name of a method's owner. -/
def isSign (sign : String) : Bool :=
  let before := sign.toList.takeWhile (!isBinder ·)
  startsName sign.toList && endsName sign.toList && sign.toList.all (· != '.') &&
    sign.toList.any isBinder && startsName before && (namesIn before).isEmpty

/-- Some variables as a line writes them. -/
structure Written (text : String) (vars : List String) : Prop where
  names : namesIn text.toList = vars.map String.toList
  chars : ∀ c ∈ text.toList, c ≠ '.' ∧ isBinder c = false
  isVariable : ∀ v ∈ vars, isVariable v = true
  flush : ∃ c rest, text.toList = c :: rest ∧ c ≠ ' '
  ne_nil : vars ≠ []

theorem written_singleton {v : String} (h : isVariable v = true) : Written v [v] := by
  have hname := isName_of_isVariable h
  refine ⟨hname.namesIn, fun c hc => ?_, by simpa using h, ?_, by simp⟩
  · have hc := hname.chars c hc
    exact ⟨not_point_of_isNameChar hc, not_isBinder_of_isNameChar hc⟩
  · obtain ⟨c, rest, hrest⟩ := List.exists_cons_of_ne_nil hname.ne_nil
    refine ⟨c, rest, hrest, ?_⟩
    rintro rfl
    exact absurd (hname.chars ' ' (by simp [hrest])) (by decide)

theorem Written.append {first rest : String} {vars more : List String} (hfirst : Written first vars)
    (hrest : Written rest more) : Written (first ++ ", " ++ rest) (vars ++ more) := by
  have hcomma : ", ".toList = [',', ' '] := rfl
  obtain ⟨c, tail, htail, hspace⟩ := hfirst.flush
  refine ⟨?_, fun c hc => ?_, fun v hv => ?_, ?_, by simp [hfirst.ne_nil]⟩
  · rw [String.toList_append, String.toList_append, List.append_assoc, hcomma]
    change namesIn (first.toList ++ ',' :: ' ' :: rest.toList) = _
    rw [namesIn_append_cons (by decide), ← List.nil_append (' ' :: _),
      namesIn_append_cons (by decide), namesIn_nil, List.nil_append, hfirst.names, hrest.names,
      List.map_append]
  · simp only [String.toList_append, List.mem_append, hcomma] at hc
    rcases hc with (hc | hc) | hc
    · exact hfirst.chars c hc
    · revert c
      decide
    · exact hrest.chars c hc
  · exact (List.mem_append.mp hv).elim (hfirst.isVariable v) (hrest.isVariable v)
  · exact ⟨c, tail ++ ", ".toList ++ rest.toList, by simp [String.toList_append, htail], hspace⟩

/-- Variables with commas between them. -/
theorem written_commaList {vars : List String} (h : ∀ v ∈ vars, isVariable v = true)
    (hne : vars ≠ []) : Written (commaList vars) vars := by
  obtain ⟨first, rest, rfl⟩ := List.exists_cons_of_ne_nil hne
  induction rest generalizing first with
  | nil =>
    rw [commaList, String.intercalate_singleton]
    exact written_singleton (h first List.mem_cons_self)
  | cons second rest ih =>
    have hrest := ih second (fun v hv => h v (List.mem_cons_of_mem _ hv)) (by simp)
    rw [commaList, String.intercalate_cons_cons]
    exact (written_singleton (h first List.mem_cons_self)).append hrest

/-- What stands behind a text does not matter up to something that the text has. -/
theorem takeWhile_append_of_mem {p : Char → Bool} {text : List Char} {c : Char} (hc : c ∈ text)
    (hp : p c = false) (more : List Char) : (text ++ more).takeWhile p = text.takeWhile p := by
  rw [List.takeWhile_append, if_neg]
  intro hlength
  have hall := List.takeWhile_eq_self_iff.mp ((List.takeWhile_prefix p).eq_of_length hlength)
  rw [hall c hc] at hp
  cases hp

theorem endsName_append {a b : List Char} (hb : endsName b = true) (hne : b ≠ []) :
    endsName (a ++ b) = true := by
  rw [endsName, List.getLast?_append_of_ne_nil _ hne]
  exact hb

/-- **A declaration**: what is read off variables that are given what a method returns. -/
theorem readText_declare {lead text sign name rest : String} {vars : List String}
    (hlead : isLead lead = true)
    (hnone : ∀ w ∈ namesIn lead.toList, isVariable (String.ofList w) = false)
    (htext : Written text vars) (hsign : isSign sign = true) (hname : IsName name.toList)
    (hrest : IsPointed rest) :
    readText (lead ++ text ++ sign ++ name ++ rest).toList =
      (if isPageName name then some name else none, vars, []) := by
  obtain ⟨hchars, hends, hvoid⟩ := isLead_iff.mp hlead
  obtain ⟨more, hmore⟩ := hrest.eq_cons
  simp only [isSign, Bool.and_eq_true, List.all_eq_true, bne_iff_ne, ne_eq,
    List.isEmpty_iff] at hsign
  -- the sign separates the variables from the name, and there is no name in it before it binds
  obtain ⟨⟨⟨⟨⟨hstart, hend⟩, hpoint⟩, hbinder⟩, hstart'⟩, hbefore⟩ := hsign
  have hline : (lead ++ text ++ sign ++ name ++ rest).toList =
      (lead.toList ++ text.toList ++ sign.toList ++ name.toList) ++ '.' :: more := by
    simp [String.toList_append, hmore]
  have hhead : '.' ∉ lead.toList ++ text.toList ++ sign.toList ++ name.toList := by
    simp only [List.mem_append, not_or]
    exact ⟨⟨⟨fun hc => (hchars _ hc).1 rfl, fun hc => (htext.chars _ hc).1 rfl⟩,
      fun hc => hpoint _ hc rfl⟩, fun hc => not_point_of_isNameChar (hname.chars _ hc) rfl⟩
  have hany : (lead.toList ++ text.toList ++ sign.toList ++ name.toList).any isBinder = true := by
    simp [List.any_append, hbinder]
  have hnames : namesIn (lead.toList ++ text.toList ++ sign.toList ++ name.toList) =
      namesIn lead.toList ++ vars.map String.toList ++ namesIn sign.toList ++ [name.toList] := by
    have hne : sign.toList ≠ [] := by
      rintro hnil
      simp [hnil] at hbinder
    rw [namesIn_append_of_endsName (endsName_append hend hne),
      namesIn_append_of_startsName hstart, namesIn_append_of_endsName hends, htext.names,
      hname.namesIn]
  -- to the left of the equals sign stand the words in front and the variables
  have hleft : (lead.toList ++ text.toList ++ sign.toList ++ name.toList).takeWhile (!isBinder ·) =
      lead.toList ++ text.toList ++ sign.toList.takeWhile (!isBinder ·) := by
    obtain ⟨c, hc, hcbinder⟩ := List.any_eq_true.mp hbinder
    rw [List.append_assoc, List.takeWhile_append_of_pos,
      takeWhile_append_of_mem hc (by simp [hcbinder])]
    intro c hc
    rcases List.mem_append.mp hc with hc | hc
    · simp [(hchars c hc).2]
    · simp [(htext.chars c hc).2]
  have hleftNames : namesIn (lead.toList ++ text.toList ++ sign.toList.takeWhile (!isBinder ·)) =
      namesIn lead.toList ++ vars.map String.toList := by
    rw [namesIn_append_of_startsName hstart', namesIn_append_of_endsName hends, htext.names,
      hbefore, List.append_nil]
  have hdeclared : ((namesIn lead.toList ++ vars.map String.toList).map String.ofList).filter
      isVariable = vars := by
    have hvars : (vars.map String.toList).map String.ofList = vars := by
      simp [Function.comp_def]
    rw [List.map_append, List.filter_append, hvars,
      List.filter_eq_nil_iff.mpr (by simpa using hnone),
      List.filter_eq_self.mpr htext.isVariable, List.nil_append]
  have hfunctions : functionsOf
      (namesIn lead.toList ++ vars.map String.toList ++ namesIn sign.toList ++ [name.toList]) =
        [] := by
    obtain ⟨v, rest, rfl⟩ := List.exists_cons_of_ne_nil htext.ne_nil
    simp only [List.map_cons, List.append_assoc, List.cons_append]
    exact functionsOf_append hvoid (htext.isVariable v List.mem_cons_self)
  rw [hline, readText]
  simp only [beforePoint_append hhead, hany, hnames, hleft, hleftNames, hdeclared, hfunctions]
  by_cases hpage : isPageName name = true <;> simp [hpage, Option.filter]

/-! ### Lines without a point, and lines that begin with one -/

/-- A text without a point that begins with names other than `void`, none of them a variable that is
bound. -/
theorem readText_of_no_point {text : List Char} (hpoint : '.' ∉ text)
    (hbound : ∀ w ∈ namesIn (text.takeWhile (!isBinder ·)), isVariable (String.ofList w) = false) :
    readText text = (none, [], functionsOf (namesIn text)) := by
  have hhead : beforePoint text = text := by
    rw [beforePoint, List.takeWhile_eq_self_iff]
    intro c hc
    simpa using ne_of_mem_of_not_mem hc hpoint
  have hdeclared : ((namesIn (text.takeWhile (!isBinder ·))).map String.ofList).filter isVariable =
      [] := by
    rw [List.filter_eq_nil_iff]
    intro name hname
    obtain ⟨w, hw, rfl⟩ := List.mem_map.mp hname
    simp [hbound w hw]
  simp [readText, hhead, hpoint, hdeclared]

/-- A text that begins with a point. -/
theorem readText_point (rest : List Char) : readText ('.' :: rest) = (none, [], []) := by
  simp [readText, beforePoint, namesIn_nil, functionsOf]

/-! ### Indents -/

theorem namesIn_spaces {margin : List Char} (h : ∀ c ∈ margin, c = ' ') (text : List Char) :
    namesIn (margin ++ text) = namesIn text := by
  induction margin with
  | nil => rfl
  | cons c margin ih =>
    obtain rfl := h c List.mem_cons_self
    rw [List.cons_append, ← List.nil_append (' ' :: _), namesIn_append_cons (by decide),
      namesIn_nil, List.nil_append]
    exact ih fun d hd => h d (List.mem_cons_of_mem _ hd)

/-- **An indent changes nothing** but the depth. -/
theorem readText_spaces {margin : List Char} (h : ∀ c ∈ margin, c = ' ') (text : List Char) :
    readText (margin ++ text) = readText text := by
  have hhead : beforePoint (margin ++ text) = margin ++ beforePoint text := by
    refine List.takeWhile_append_of_pos fun c hc => ?_
    rw [h c hc]
    rfl
  have hpoint : (margin ++ text).contains '.' = text.contains '.' := by
    have hmargin : '.' ∉ margin := fun hc => absurd (h _ hc) (by decide)
    simp [hmargin]
  have hbinder : (margin ++ beforePoint text).any isBinder = (beforePoint text).any isBinder := by
    have hmargin : margin.any isBinder = false := by
      rw [List.any_eq_false]
      intro c hc
      rw [h c hc]
      decide
    rw [List.any_append, hmargin, Bool.false_or]
  have hleft : (margin ++ beforePoint text).takeWhile (!isBinder ·) =
      margin ++ (beforePoint text).takeWhile (!isBinder ·) := by
    refine List.takeWhile_append_of_pos fun c hc => ?_
    rw [h c hc]
    rfl
  simp only [readText, hhead, hpoint, hbinder, hleft, namesIn_spaces h]

/-! ### What ends a line -/

/-- **What may end a line**: brackets, commas and semicolons, which are part of no name. -/
def isEnd (stop : String) : Bool :=
  stop.toList.all fun c => !isNameChar c && c != '.' && !isBinder c && c != ' '

theorem namesIn_eq_nil {text : List Char} (h : ∀ c ∈ text, isNameChar c = false) :
    namesIn text = [] := by
  induction text with
  | nil => rfl
  | cons c text ih =>
    rw [← List.nil_append (c :: text), namesIn_append_cons (h c List.mem_cons_self), namesIn_nil,
      List.nil_append]
    exact ih fun d hd => h d (List.mem_cons_of_mem _ hd)

theorem namesIn_append_of_no_name {text stop : List Char}
    (h : ∀ c ∈ stop, isNameChar c = false) : namesIn (text ++ stop) = namesIn text := by
  have hstart : startsName stop = true := by
    cases stop with
    | nil => rfl
    | cons c stop => simpa [startsName] using h c List.mem_cons_self
  rw [namesIn_append_of_startsName hstart, namesIn_eq_nil h, List.append_nil]

/-- What ends a text takes no part in its names, as far as a part of it goes. -/
theorem namesIn_takeWhile_append {p : Char → Bool} {text stop : List Char}
    (h : ∀ c ∈ stop, isNameChar c = false) :
    namesIn ((text ++ stop).takeWhile p) = namesIn (text.takeWhile p) := by
  rw [List.takeWhile_append]
  split
  · next hlength =>
    rw [(List.takeWhile_prefix p).eq_of_length hlength]
    exact namesIn_append_of_no_name fun c hc => h c (List.takeWhile_subset p hc)
  · rfl

/-- **What ends a line changes nothing.** -/
theorem readText_append_of_isEnd {text : List Char} {stop : String} (h : isEnd stop = true) :
    readText (text ++ stop.toList) = readText text := by
  simp only [isEnd, List.all_eq_true, Bool.and_eq_true, Bool.not_eq_true', bne_iff_ne] at h
  have hpoint : (text ++ stop.toList).contains '.' = text.contains '.' := by
    have hstop : '.' ∉ stop.toList := fun hc => (h _ hc).1.1.2 rfl
    simp [hstop]
  -- in front of the first point stands what stood there before, and maybe the end
  obtain ⟨rest, hhead, hrest⟩ : ∃ rest,
      beforePoint (text ++ stop.toList) = beforePoint text ++ rest ∧
      ∀ c ∈ rest, c ∈ stop.toList := by
    rw [beforePoint, List.takeWhile_append]
    split
    · next hlength =>
      refine ⟨stop.toList.takeWhile (· != '.'), ?_, fun c hc => List.takeWhile_subset _ hc⟩
      rw [beforePoint, (List.takeWhile_prefix _).eq_of_length hlength]
    · exact ⟨[], (List.append_nil _).symm, fun c hc => by cases hc⟩
  have hnone : ∀ c ∈ rest, isNameChar c = false := fun c hc => (h c (hrest c hc)).1.1.1
  have hbinder : (beforePoint text ++ rest).any isBinder = (beforePoint text).any isBinder := by
    have hfalse : rest.any isBinder = false := by
      rw [List.any_eq_false]
      intro c hc
      simp [(h c (hrest c hc)).1.2]
    rw [List.any_append, hfalse, Bool.or_false]
  simp only [readText, hpoint, hhead, hbinder, namesIn_append_of_no_name hnone,
    namesIn_takeWhile_append hnone]

/-- **What stands behind a point** does not matter. -/
theorem readText_append_of_mem {text : List Char} (h : '.' ∈ text) (more : List Char) :
    readText (text ++ more) = readText text := by
  obtain ⟨head, rest, rfl, hhead⟩ := List.eq_append_cons_of_mem h
  simp [readText, beforePoint_append hhead]

/-! ### Lines that do nothing -/

/-- **A quiet text** has no point and binds nothing. -/
def IsQuiet (text : String) : Prop :=
  ∀ c ∈ text.toList, c ≠ '.' ∧ isBinder c = false

instance (text : String) : Decidable (IsQuiet text) :=
  inferInstanceAs (Decidable (∀ _ ∈ _, _))

theorem IsQuiet.append {first second : String} (hfirst : IsQuiet first) (hsecond : IsQuiet second) :
    IsQuiet (first ++ second) := by
  intro c hc
  rw [String.toList_append, List.mem_append] at hc
  exact hc.elim (hfirst c) (hsecond c)

theorem IsQuiet.commaList {texts : List String} (h : ∀ text ∈ texts, IsQuiet text) :
    IsQuiet (commaList texts) := by
  have hcomma : IsQuiet ", " := by decide
  cases texts with
  | nil => decide
  | cons first rest =>
    induction rest generalizing first with
    | nil => simpa [Program.commaList] using h
    | cons second rest ih =>
      have hrest := ih second fun text htext => h text (List.mem_cons_of_mem _ htext)
      rw [Program.commaList, String.intercalate_cons_cons]
      exact ((h first List.mem_cons_self).append hcomma).append hrest

theorem isQuiet_repr (n : ℕ) : IsQuiet n.repr := by
  intro c hc
  rw [Nat.toList_repr] at hc
  have hdigit := Nat.isDigit_of_mem_toDigits (by decide) (by decide) hc
  have hname := isNameChar_of_isDigit hdigit
  exact ⟨not_point_of_isNameChar hname, not_isBinder_of_isNameChar hname⟩

theorem isQuiet_toString (n : ℤ) : IsQuiet (toString n) := by
  have hminus : IsQuiet "-" := by decide
  rw [Int.toString_eq_repr, Int.repr_eq_if]
  split
  · exact isQuiet_repr _
  · exact hminus.append (isQuiet_repr _)

/-- A text without a point that binds nothing may still define a function. -/
theorem readText_of_quiet {text : List Char} (h : ∀ c ∈ text, c ≠ '.' ∧ isBinder c = false) :
    readText text = (none, [], functionsOf (namesIn text)) := by
  have hpoint : '.' ∉ text := fun hc => (h _ hc).1 rfl
  have hhead : beforePoint text = text := by
    rw [beforePoint, List.takeWhile_eq_self_iff]
    intro c hc
    simpa using ne_of_mem_of_not_mem hc hpoint
  have hbinder : text.any isBinder = false := by
    rw [List.any_eq_false]
    intro c hc
    simp [(h c hc).2]
  simp [readText, hhead, hpoint, hbinder]

end Scribe.Program
