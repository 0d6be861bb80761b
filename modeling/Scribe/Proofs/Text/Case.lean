import Mathlib
import Scribe.Text.Case
import Scribe.Text.Quoted

/-!
# Identifiers and letter case

**What becomes an identifier once its case is changed?** An identifier does, and so does a text with
a few characters from outside of ASCII: ten of them are written in ASCII letters in upper case
(`Scribe.Text.asciiInUpper`), and one of them is in lower case (`Scribe.Text.asciiInLower`). There
are no others, which is read off the tables: all other runs stay clear of ASCII, and so does a part
of each other expansion (`Scribe.Text.mem_of_mapCase`).
-/

namespace Scribe.Text

/-! ### Identifiers -/

/-- The marks that may stand in an identifier besides letters and digits. -/
def Dialect.nameMarks : Dialect → List Char
  | .javaScript | .java => ['_', '$']
  | .python | .csharp => ['_']

/-- Whether an ASCII character may stand in an identifier. -/
def Dialect.isNamePart (d : Dialect) (c : Char) : Bool :=
  c.isAlphanum || d.nameMarks.contains c

/-- **Whether a text is an ASCII identifier**, reserved words of letters aside. In Java the single
underscore is reserved too. -/
def Dialect.isIdentifier (d : Dialect) (text : List Char) : Bool :=
  text.head?.any (!·.isDigit) && text.all d.isNamePart && !(d == .java && text == ['_'])

/-- **The characters beyond ASCII whose upper case is ASCII**: the sharp s, the dotless i, the
long s and seven ligatures. -/
def asciiInUpper : List Char :=
  ['ß', 'ı', 'ſ', 'ﬀ', 'ﬁ', 'ﬂ', 'ﬃ', 'ﬄ', 'ﬅ', 'ﬆ']

/-- **The character beyond ASCII whose lower case is ASCII**: the sign for Kelvin. -/
def asciiInLower : List Char :=
  ['\u212a']

variable {d : Dialect} {c : Char}

/-- Whatever may stand in an identifier is ASCII, and it is not the null character. -/
theorem toNat_of_isNamePart (h : d.isNamePart c = true) : 0 < c.toNat ∧ c.toNat < 0x80 := by
  have hmarks : d.nameMarks.all (fun x => 0 < x.toNat && x.toNat < 0x80) = true := by
    cases d <;> decide
  rw [Dialect.isNamePart, Bool.or_eq_true] at h
  rcases h with h | h
  · simp only [Char.isAlphanum, Char.isAlpha, Char.isUpper, Char.isLower, Char.isDigit,
      Bool.or_eq_true, Bool.and_eq_true, decide_eq_true_eq, ge_iff_le, UInt32.le_iff_toNat_le] at h
    have hval : c.val.toNat = c.toNat := rfl
    rw [hval] at h
    rcases h with (⟨h₁, h₂⟩ | ⟨h₁, h₂⟩) | ⟨h₁, h₂⟩
    · exact ⟨Nat.lt_of_lt_of_le (by decide) h₁, Nat.lt_of_le_of_lt h₂ (by decide)⟩
    · exact ⟨Nat.lt_of_lt_of_le (by decide) h₁, Nat.lt_of_le_of_lt h₂ (by decide)⟩
    · exact ⟨Nat.lt_of_lt_of_le (by decide) h₁, Nat.lt_of_le_of_lt h₂ (by decide)⟩
  · simpa using List.all_eq_true.mp hmarks c (by simpa using h)

theorem lt_of_isNamePart_ofNat {n : ℕ} (h : d.isNamePart (Char.ofNat n) = true) : n < 0x80 := by
  obtain ⟨hpos, hlt⟩ := toNat_of_isNamePart h
  by_cases hvalid : n.isValidChar
  · rwa [Char.toNat_ofNat, if_pos hvalid] at hlt
  · rw [Char.toNat_ofNat, if_neg hvalid] at hpos
    exact absurd hpos (Nat.lt_irrefl 0)

/-! ### Tables -/

/-- **A table of case mappings leads into ASCII from a few characters only**, if each of its
expansions and runs that does so is one of a list. -/
theorem mem_of_mapCase {expansions : List (ℕ × List ℕ)} {runs : List CaseRun} {codes : List ℕ}
    (hexpansions : ∀ entry ∈ expansions, (∀ n ∈ entry.2, n < 0x80) → entry.1 ∈ codes)
    (hruns : ∀ r ∈ runs, (r.first : ℤ) + r.shift < 0x80 → r.first = r.last ∧ r.first ∈ codes)
    (hc : 0x80 ≤ c.toNat) (h : ∀ x ∈ mapCase expansions runs c, d.isNamePart x = true) :
    c.toNat ∈ codes := by
  rw [mapCase] at h
  split at h
  · next image hlookup =>
    obtain ⟨before, after, hentries, -⟩ := List.lookup_eq_some_iff.mp hlookup
    refine hexpansions (c.toNat, image) (by simp [hentries]) fun n hn => ?_
    exact lt_of_isNamePart_ofNat (h _ (List.mem_map_of_mem hn))
  · have himage : applyRuns runs c.toNat < 0x80 := lt_of_isNamePart_ofNat (h _ List.mem_cons_self)
    rw [applyRuns] at himage
    split at himage
    · next r hr =>
      have hrange : r.first ≤ c.toNat ∧ c.toNat ≤ r.last := by
        have hcontains := List.find?_some hr
        simp only [CaseRun.contains, Bool.and_eq_true, decide_eq_true_eq] at hcontains
        exact hcontains.1
      have hshift : (r.first : ℤ) + r.shift < 0x80 := by
        simp only [Int.ofNat_eq_natCast] at himage
        omega
      obtain ⟨hsingle, hcode⟩ := hruns r (List.mem_of_find?_eq_some hr) hshift
      have heq : c.toNat = r.first := by omega
      exact heq ▸ hcode
    · omega

/-- **Where a case mapping leads to what may stand in an identifier**: from there, and from a few
characters beyond ASCII. -/
theorem forall_isNamePart_iff {f : Char → Char} {expansions : List (ℕ × List ℕ)}
    {runs : List CaseRun} {chars : List Char}
    (hf : ∀ n < 0x80, d.isNamePart (f (Char.ofNat n)) = d.isNamePart (Char.ofNat n))
    (hchars : chars.all fun x =>
      0x80 ≤ x.toNat && (mapCase expansions runs x).all d.isNamePart)
    (hexpansions : ∀ entry ∈ expansions, (∀ n ∈ entry.2, n < 0x80) →
      entry.1 ∈ chars.map Char.toNat)
    (hruns : ∀ r ∈ runs, (r.first : ℤ) + r.shift < 0x80 →
      r.first = r.last ∧ r.first ∈ chars.map Char.toNat) :
    (∀ x ∈ if c.toNat < 0x80 then [f c] else mapCase expansions runs c, d.isNamePart x = true) ↔
      d.isNamePart c = true ∨ c ∈ chars := by
  have hchars {x : Char} (hx : x ∈ chars) :
      0x80 ≤ x.toNat ∧ ∀ y ∈ mapCase expansions runs x, d.isNamePart y = true := by
    simpa using List.all_eq_true.mp hchars x hx
  by_cases hc : c.toNat < 0x80
  · have hkeeps := hf c.toNat hc
    rw [Char.ofNat_toNat] at hkeeps
    have hnotMem : c ∉ chars := fun hmem => absurd (hchars hmem).1 (Nat.not_le_of_lt hc)
    simp [hc, hkeeps, hnotMem]
  · have hpart : d.isNamePart c ≠ true := fun h => hc (toNat_of_isNamePart h).2
    rw [if_neg hc]
    constructor
    · intro h
      obtain ⟨x, hx, hcode⟩ :=
        List.mem_map.mp (mem_of_mapCase hexpansions hruns (Nat.le_of_not_lt hc) h)
      exact .inr (Char.toNat_inj.mp hcode ▸ hx)
    · rintro (h | h)
      · exact absurd h hpart
      · exact (hchars h).2

/-! ### Upper and lower case -/

/-- **Upper case, character by character.** -/
theorem forall_isNamePart_upperChar_iff :
    (∀ x ∈ upperChar c, d.isNamePart x = true) ↔ d.isNamePart c = true ∨ c ∈ asciiInUpper :=
  forall_isNamePart_iff (by cases d <;> decide +kernel) (by cases d <;> decide +kernel)
    (by decide +kernel) (by decide +kernel)

/-- **Lower case, character by character**, out of context. -/
theorem forall_isNamePart_lowerChar_iff :
    (∀ x ∈ lowerChar c, d.isNamePart x = true) ↔ d.isNamePart c = true ∨ c ∈ asciiInLower :=
  forall_isNamePart_iff (by cases d <;> decide +kernel) (by cases d <;> decide +kernel)
    (by decide +kernel) (by decide +kernel)

theorem forall_isNamePart_upper_iff {text : List Char} :
    (∀ x ∈ upper text, d.isNamePart x = true) ↔
      ∀ c ∈ text, d.isNamePart c = true ∨ c ∈ asciiInUpper := by
  rw [upper, List.forall_mem_flatMap]
  exact forall₂_congr fun c _ => forall_isNamePart_upperChar_iff

/-- A capital sigma stays beyond ASCII, so the context does not matter. -/
theorem forall_isNamePart_lowerFrom_iff {text : List Char} (before : List Char) :
    (∀ x ∈ lowerFrom before text, d.isNamePart x = true) ↔
      ∀ c ∈ text, d.isNamePart c = true ∨ c ∈ asciiInLower := by
  induction text generalizing before with
  | nil => simp [lowerFrom]
  | cons c rest ih =>
    rw [lowerFrom, List.forall_mem_append, ih, List.forall_mem_cons, and_congr_left_iff]
    intro _
    by_cases hsigma : c = 'Σ'
    · subst hsigma
      have hbeyond : d.isNamePart 'Σ' = false ∧ d.isNamePart 'ς' = false ∧
          d.isNamePart 'σ' = false ∧ 'Σ' ∉ asciiInLower := by
        cases d <;> decide
      simp only [beq_self_eq_true, if_true, List.mem_singleton, forall_eq]
      split <;> simp [hbeyond]
    · rw [beq_eq_false_iff_ne.mpr hsigma]
      exact forall_isNamePart_lowerChar_iff

/-! ### Identifiers in another case -/

theorem isIdentifier_iff {text : List Char} :
    d.isIdentifier text = true ↔ text.head?.any (!·.isDigit) = true ∧
      (∀ x ∈ text, d.isNamePart x = true) ∧ ¬(d = .java ∧ text = ['_']) := by
  simp [Dialect.isIdentifier, and_assoc, imp_iff_not_or]

/-- The upper case of what may stand in an identifier is a letter where it is one, a digit where it
is one, and the underscore where it is one. -/
theorem upperChar_eq_cons (h : d.isNamePart c = true ∨ c ∈ asciiInUpper) :
    ∃ x rest, upperChar c = x :: rest ∧ x.isDigit = c.isDigit ∧ (x :: rest = ['_'] ↔ c = '_') := by
  rcases h with h | h
  · have hascii : ∀ n < 0x80, (Char.ofNat n).toUpper.isDigit = (Char.ofNat n).isDigit ∧
        ((Char.ofNat n).toUpper = '_' ↔ Char.ofNat n = '_') := by
      decide +kernel
    have hlt := (toNat_of_isNamePart h).2
    have hc := hascii c.toNat hlt
    rw [Char.ofNat_toNat] at hc
    exact ⟨c.toUpper, [], by rw [upperChar, if_pos hlt], hc.1, by simpa using hc.2⟩
  · have hall : (asciiInUpper.all fun c => (upperChar c).head?.any (!·.isDigit) &&
        !c.isDigit && upperChar c != ['_'] && c != '_') = true := by
      decide +kernel
    have hc := List.all_eq_true.mp hall c h
    cases hupper : upperChar c with
    | nil => simp [hupper] at hc
    | cons x rest =>
      simp only [hupper, List.head?_cons, Option.any_some, Bool.and_eq_true, Bool.not_eq_true',
        bne_iff_ne, ne_eq] at hc
      obtain ⟨⟨⟨hx, hdigit⟩, hmark⟩, hne⟩ := hc
      exact ⟨x, rest, rfl, hx.trans hdigit.symm, by simp only [hmark, hne]⟩

/-- **An identifier from a character in upper case** and what follows it. -/
theorem isIdentifier_upperChar_append {rest : List Char} :
    d.isIdentifier (upperChar c ++ rest) = true ↔
      (d.isNamePart c = true ∨ c ∈ asciiInUpper) ∧ c.isDigit = false ∧
        (∀ x ∈ rest, d.isNamePart x = true) ∧ ¬(d = .java ∧ c = '_' ∧ rest = []) := by
  rw [isIdentifier_iff, List.forall_mem_append, forall_isNamePart_upperChar_iff]
  constructor
  · rintro ⟨hhead, ⟨hc, hrest⟩, hmark⟩
    obtain ⟨x, more, hupper, hdigit, hsame⟩ := upperChar_eq_cons hc
    refine ⟨hc, ?_, hrest, ?_⟩
    · simpa [hupper, hdigit] using hhead
    · rintro ⟨rfl, rfl, rfl⟩
      exact hmark ⟨rfl, by rw [hupper, List.append_nil]; exact hsame.mpr rfl⟩
  · rintro ⟨hc, hnumber, hrest, hmark⟩
    obtain ⟨x, more, hupper, hdigit, hsame⟩ := upperChar_eq_cons hc
    refine ⟨by simp [hupper, hdigit, hnumber], ⟨hc, hrest⟩, ?_⟩
    rintro ⟨rfl, hsingle⟩
    rw [hupper, List.cons_append, List.cons.injEq, List.append_eq_nil_iff] at hsingle
    obtain ⟨rfl, rfl, rfl⟩ := hsingle
    exact hmark ⟨rfl, hsame.mp rfl, rfl⟩

/-- **An identifier in upper case.** -/
theorem isIdentifier_upper_cons {rest : List Char} :
    d.isIdentifier (upper (c :: rest)) = true ↔ c.isDigit = false ∧
      (∀ x ∈ c :: rest, d.isNamePart x = true ∨ x ∈ asciiInUpper) ∧
        ¬(d = .java ∧ c :: rest = ['_']) := by
  have hnil (hrest : ∀ x ∈ rest, d.isNamePart x = true ∨ x ∈ asciiInUpper) :
      upper rest = [] ↔ rest = [] := by
    cases rest with
    | nil => rfl
    | cons c' more =>
      obtain ⟨x, _, hupper, -⟩ := upperChar_eq_cons (hrest c' List.mem_cons_self)
      simp [upper, hupper]
  rw [upper, List.flatMap_cons, isIdentifier_upperChar_append, ← upper, forall_isNamePart_upper_iff,
    List.forall_mem_cons, List.cons.injEq]
  constructor
  · rintro ⟨hc, hdigit, hrest, hmark⟩
    exact ⟨hdigit, ⟨hc, hrest⟩, fun ⟨hd, hsame, hend⟩ => hmark ⟨hd, hsame, (hnil hrest).mpr hend⟩⟩
  · rintro ⟨hdigit, ⟨hc, hrest⟩, hmark⟩
    exact ⟨hc, hdigit, hrest, fun ⟨hd, hsame, hend⟩ => hmark ⟨hd, hsame, (hnil hrest).mp hend⟩⟩

/-- **An identifier with its first character in upper case**, and the others in lower case. -/
theorem isIdentifier_upperChar_append_lower (hd : d ≠ .java) {rest : List Char} :
    d.isIdentifier (upperChar c ++ lower rest) = true ↔ c.isDigit = false ∧
      (d.isNamePart c = true ∨ c ∈ asciiInUpper) ∧
        ∀ x ∈ rest, d.isNamePart x = true ∨ x ∈ asciiInLower := by
  rw [isIdentifier_upperChar_append, lower, forall_isNamePart_lowerFrom_iff]
  simp only [hd, false_and, not_false_eq_true, and_true]
  exact and_left_comm

end Scribe.Text
