import Mathlib.Data.Int.Notation
import Mathlib.Data.List.TakeWhile
import Scribe.Text.Case
import Scribe.Text.Numeral

/-!
# Numerals and letter case

**Lower case changes no numeral**, and makes none of what was none. The characters of numerals,
which are digits of any number system, white space, signs and the underscore
(`Scribe.Text.isNumeralPart`), stay what they are, and no other character becomes one of them. This
is read off the table of the runs of letters: neither the runs nor their images meet the ranges of
the numerals.

A capital sigma has two images and its neighbours decide between them, so a stretch of a text is not
lowered as it would be by itself. What all ways to lower a text have in common is
`Scribe.Text.IsLowered`, under which any stretch is lowered if the text is
(`Scribe.Text.IsLowered.append_inv`). `Scribe.Text.IsLowered.readInt?_eq` is the main statement.
-/

namespace Scribe.Text

variable {c x : Char} {s t : List Char}

/-! ### The characters of numerals -/

/-- The ranges of white space. -/
def spaceRanges : List (ℕ × ℕ) :=
  [(0x09, 0x0D), (0x20, 0x20), (0x85, 0x85), (0xA0, 0xA0), (0x1680, 0x1680), (0x2000, 0x200A),
    (0x2028, 0x2029), (0x202F, 0x202F), (0x205F, 0x205F), (0x3000, 0x3000)]

/-- The ranges of the characters that a numeral may hold: white space, the digits of every number
system, the two signs and the underscore. -/
def numeralRanges : List (ℕ × ℕ) :=
  spaceRanges ++ (digitZeros.map fun z => (z, z + 9)) ++ [(0x2B, 0x2B), (0x2D, 0x2D), (0x5F, 0x5F)]

/-- **Whether a numeral may hold a character.** -/
def isNumeralPart (c : Char) : Bool :=
  inRanges numeralRanges c.toNat

theorem inRanges_eq_true {ranges : List (ℕ × ℕ)} {n : ℕ} :
    inRanges ranges n = true ↔ ∃ q ∈ ranges, q.1 ≤ n ∧ n ≤ q.2 := by
  simp [inRanges]

theorem isNumeralPart_of_isWhiteSpace (h : isWhiteSpace c = true) : isNumeralPart c = true := by
  have hspace : inRanges spaceRanges c.toNat = true := by
    simp only [isWhiteSpace, Bool.or_eq_true, Bool.and_eq_true, decide_eq_true_eq, beq_iff_eq] at h
    simp only [inRanges, spaceRanges, List.any_cons, List.any_nil, Bool.or_eq_true,
      Bool.and_eq_true, decide_eq_true_eq]
    omega
  rw [inRanges] at hspace
  rw [isNumeralPart, inRanges, numeralRanges, List.any_append, List.any_append, hspace,
    Bool.true_or, Bool.true_or]

theorem isNumeralPart_of_digitValue? (h : (digitValue? c).isSome = true) :
    isNumeralPart c = true := by
  rw [digitValue?, Option.isSome_map, List.find?_isSome] at h
  have hdigit : (digitZeros.map fun z => (z, z + 9)).any
      (fun q => q.1 ≤ c.toNat && c.toNat ≤ q.2) = true := by
    rw [List.any_map]
    exact List.any_eq_true.mpr h
  rw [isNumeralPart, inRanges, numeralRanges, List.any_append, List.any_append, hdigit,
    Bool.or_true, Bool.true_or]

/-- **Digits in groups** are made of digits and underscores. -/
theorem isNumeralPart_of_digitsAfter {digits : List ℕ}
    (h : digitsAfter digitValue? s = some digits) : ∀ c ∈ s, isNumeralPart c = true := by
  have hdigit {c : Char} {d : ℕ} (hd : digitValue? c = some d) : isNumeralPart c = true :=
    isNumeralPart_of_digitValue? (by rw [hd]; rfl)
  have hmark : isNumeralPart '_' = true := by decide +kernel
  induction s using digitsAfter.induct digitValue? generalizing digits with
  | case1 => exact fun c hc => nomatch hc
  | case2 c rest d hd ih =>
    obtain ⟨more, hmore, -⟩ := Option.map_eq_some_iff.mp (by rwa [digitsAfter, hd] at h)
    exact List.forall_mem_cons.mpr ⟨hmark, List.forall_mem_cons.mpr ⟨hdigit hd, ih hmore⟩⟩
  | case3 c rest hd => simp [digitsAfter, hd] at h
  | case4 c rest hnot d hd ih =>
    rw [digitsAfter.eq_3 _ _ _ hnot, hd] at h
    obtain ⟨more, hmore, -⟩ := Option.map_eq_some_iff.mp h
    exact List.forall_mem_cons.mpr ⟨hdigit hd, ih hmore⟩
  | case5 c rest hnot hd => simp [digitsAfter.eq_3 _ _ _ hnot, hd] at h

theorem isNumeralPart_of_groupedDigits? {digits : List ℕ}
    (h : groupedDigits? digitValue? s = some digits) : ∀ c ∈ s, isNumeralPart c = true := by
  cases s with
  | nil => exact fun c hc => nomatch hc
  | cons c rest =>
    rw [groupedDigits?] at h
    split at h
    · next d hd =>
      obtain ⟨more, hmore, -⟩ := Option.map_eq_some_iff.mp h
      exact List.forall_mem_cons.mpr
        ⟨isNumeralPart_of_digitValue? (by rw [hd]; rfl), isNumeralPart_of_digitsAfter hmore⟩
    · cases h

/-- What is cut off at the ends is in the class. -/
theorem mem_trim_or {p : Char → Bool} (hc : c ∈ s) : p c = true ∨ c ∈ trim p s := by
  have hdrop {l : List Char} (h : c ∈ l) : p c = true ∨ c ∈ l.dropWhile p := by
    rw [← List.takeWhile_append_dropWhile (p := p) (l := l)] at h
    exact (List.mem_append.mp h).imp_left List.mem_takeWhile_imp
  rw [trim, List.mem_reverse]
  refine (hdrop hc).elim .inl fun h => hdrop (List.mem_reverse.mpr h)

theorem mem_splitSign_or (hc : c ∈ s) : c = '-' ∨ c = '+' ∨ c ∈ (splitSign s).2 := by
  unfold splitSign
  split
  · exact (List.mem_cons.mp hc).imp_right .inr
  · exact .inr (List.mem_cons.mp hc)
  · exact .inr (.inr hc)

/-- **A text that is read as an integer** holds nothing but the characters of numerals. -/
theorem isNumeralPart_of_readInt? {n : ℤ} (h : readInt? s = some n) :
    ∀ c ∈ s, isNumeralPart c = true := by
  intro c hc
  unfold readInt? at h
  dsimp only at h
  split at h
  · next digits hdigits =>
    rcases mem_trim_or (p := isWhiteSpace) hc with hspace | hc
    · exact isNumeralPart_of_isWhiteSpace hspace
    rcases mem_splitSign_or hc with rfl | rfl | hc
    · decide +kernel
    · decide +kernel
    · exact isNumeralPart_of_groupedDigits? hdigits c hc
  · cases h

/-! ### Letters in lower case -/

/-- **The lower case of a character** is one character, but for one letter. -/
theorem lowerChar_eq_or (c : Char) :
    c.toNat < 0x80 ∧ lowerChar c = [c.toLower] ∨ lowerChar c = ['i', '\u0307'] ∧ c = 'İ' ∨
      0x80 ≤ c.toNat ∧ lowerChar c = [Char.ofNat (applyRuns lowerRuns c.toNat)] := by
  rw [lowerChar]
  by_cases hascii : c.toNat < 0x80
  · exact .inl ⟨hascii, if_pos hascii⟩
  · rw [if_neg hascii, mapCase]
    by_cases hdotted : c = 'İ'
    · subst hdotted
      exact .inr (.inl ⟨rfl, rfl⟩)
    · have hcode : (c.toNat == 0x130) = false :=
        beq_eq_false_iff_ne.mpr fun h => hdotted (Char.toNat_inj.mp h)
      have hlookup : lowerExpansions.lookup c.toNat = none := by
        rw [lowerExpansions, List.lookup_cons, hcode, List.lookup_nil]
      rw [hlookup]
      exact .inr (.inr ⟨Nat.le_of_not_lt hascii, rfl⟩)

/-- Whether no range of a list meets a stretch of code points. -/
def isApart (ranges : List (ℕ × ℕ)) (first last : ℕ) : Bool :=
  ranges.all fun q => last < q.1 || q.2 < first

theorem inRanges_of_isApart {ranges : List (ℕ × ℕ)} {first last n : ℕ}
    (h : isApart ranges first last = true) (hfirst : first ≤ n) (hlast : n ≤ last) :
    inRanges ranges n = false := by
  refine Bool.eq_false_iff.mpr fun hin => ?_
  obtain ⟨q, hq, hle, hge⟩ := inRanges_eq_true.mp hin
  have hapart := List.all_eq_true.mp h q hq
  simp only [Bool.or_eq_true, decide_eq_true_eq] at hapart
  omega

/-- **Runs that stay clear of some ranges**, they and their images. -/
def StayClear (runs : List CaseRun) (ranges : List (ℕ × ℕ)) : Prop :=
  (runs.all fun r => isApart ranges r.first r.last &&
    isApart ranges (Int.ofNat r.first + r.shift).toNat (Int.ofNat r.last + r.shift).toNat) = true

instance (runs : List CaseRun) (ranges : List (ℕ × ℕ)) : Decidable (StayClear runs ranges) :=
  inferInstanceAs (Decidable (_ = true))

/-- Such runs move nothing within the ranges, and nothing into them. -/
theorem StayClear.applyRuns_eq {runs : List CaseRun} {ranges : List (ℕ × ℕ)} {n : ℕ}
    (hclear : StayClear runs ranges)
    (h : inRanges ranges n = true ∨ inRanges ranges (applyRuns runs n) = true) :
    applyRuns runs n = n := by
  unfold applyRuns at h ⊢
  split at h
  · next r hr =>
    obtain ⟨hbefore, hafter⟩ :=
      Bool.and_eq_true_iff.mp (List.all_eq_true.mp hclear r (List.mem_of_find?_eq_some hr))
    have hcontains := List.find?_some hr
    simp only [CaseRun.contains, Bool.and_eq_true, decide_eq_true_eq] at hcontains
    obtain ⟨⟨hfirst, hlast⟩, -⟩ := hcontains
    rw [inRanges_of_isApart hbefore hfirst hlast,
      inRanges_of_isApart hafter (by simp only [Int.ofNat_eq_natCast]; omega)
        (by simp only [Int.ofNat_eq_natCast]; omega)] at h
    exact absurd h (by decide)
  · rfl

theorem inRanges_of_ofNat {ranges : List (ℕ × ℕ)} {n : ℕ} (hzero : inRanges ranges 0 = false)
    (h : inRanges ranges (Char.ofNat n).toNat = true) : inRanges ranges n = true := by
  by_cases hvalid : n.isValidChar
  · rw [Char.ofNat, dif_pos hvalid] at h
    exact h
  · rw [Char.ofNat, dif_neg hvalid] at h
    exact absurd (h.symm.trans hzero) (by decide)

theorem stayClear_numeralRanges : StayClear lowerRuns numeralRanges := by
  decide +kernel

/-- The characters of numerals stay what they are. -/
theorem lowerChar_of_isNumeralPart (h : isNumeralPart c = true) : lowerChar c = [c] := by
  rcases lowerChar_eq_or c with ⟨hascii, heq⟩ | ⟨-, rfl⟩ | ⟨-, heq⟩
  · have htable : ∀ n < 0x80, isNumeralPart (Char.ofNat n) = true →
        (Char.ofNat n).toLower = Char.ofNat n := by
      decide +kernel
    have hc := htable c.toNat hascii
    rw [Char.ofNat_toNat] at hc
    rw [heq, hc h]
  · exact absurd h (by decide +kernel)
  · rw [heq, stayClear_numeralRanges.applyRuns_eq (.inl h), Char.ofNat_toNat]

/-- No other character becomes one of them alone. -/
theorem isNumeralPart_of_lowerChar (h : ∀ x ∈ lowerChar c, isNumeralPart x = true) :
    isNumeralPart c = true := by
  rcases lowerChar_eq_or c with ⟨hascii, heq⟩ | ⟨heq, rfl⟩ | ⟨-, heq⟩
  · have htable : ∀ n < 0x80, isNumeralPart (Char.ofNat n).toLower = true →
        isNumeralPart (Char.ofNat n) = true := by
      decide +kernel
    have hc := htable c.toNat hascii
    rw [Char.ofNat_toNat] at hc
    exact hc (h _ (heq ▸ List.mem_singleton_self _))
  · exact absurd (h 'i' (heq ▸ List.mem_cons_self)) (by decide +kernel)
  · have himage := h _ (heq ▸ List.mem_singleton_self _)
    have hin := inRanges_of_ofNat (by decide +kernel) himage
    rwa [stayClear_numeralRanges.applyRuns_eq (.inr hin)] at hin

/-- **A cross**: an `x` in either case. -/
def IsCross (c : Char) : Prop :=
  c = 'x' ∨ c = 'X'

instance : DecidablePred IsCross := fun c => inferInstanceAs (Decidable (c = 'x' ∨ c = 'X'))

theorem lowerChar_of_isCross (h : IsCross c) : lowerChar c = ['x'] := by
  rcases h with rfl | rfl <;> rfl

/-- **Only a cross becomes an `x`.** -/
theorem isCross_of_mem_lowerChar (h : 'x' ∈ lowerChar c) : IsCross c := by
  rcases lowerChar_eq_or c with ⟨hascii, heq⟩ | ⟨heq, rfl⟩ | ⟨hbeyond, heq⟩
  · have htable : ∀ n < 0x80, 'x' = (Char.ofNat n).toLower → IsCross (Char.ofNat n) := by
      decide +kernel
    have hc := htable c.toNat hascii
    rw [Char.ofNat_toNat] at hc
    exact hc (List.mem_singleton.mp (heq ▸ h))
  · exact absurd (heq ▸ h) (by decide)
  · have hclear : StayClear lowerRuns [(0x78, 0x78)] := by decide +kernel
    have himage : 'x' = Char.ofNat (applyRuns lowerRuns c.toNat) := List.mem_singleton.mp (heq ▸ h)
    have hin : inRanges [(0x78, 0x78)] (applyRuns lowerRuns c.toNat) = true :=
      inRanges_of_ofNat rfl (himage ▸ rfl)
    rw [hclear.applyRuns_eq (.inr hin)] at hin
    obtain ⟨q, hq, hle, hge⟩ := inRanges_eq_true.mp hin
    obtain rfl := List.mem_singleton.mp hq
    exact absurd hge (by dsimp only; omega)

/-! ### Texts in lower case -/

/-- **An image of a character in lower case**: a capital sigma has another one at the end of a
word. -/
def IsImage (c : Char) (image : List Char) : Prop :=
  image = lowerChar c ∨ c = 'Σ' ∧ image = ['ς']

/-- **A text in lower case**, wherever it has its words end. -/
inductive IsLowered : List Char → List Char → Prop where
  | nil : IsLowered [] []
  | cons {c : Char} {s image t : List Char} (hc : IsImage c image) (h : IsLowered s t) :
    IsLowered (c :: s) (image ++ t)

theorem isLowered_lowerFrom (before s : List Char) : IsLowered s (lowerFrom before s) := by
  induction s generalizing before with
  | nil => exact .nil
  | cons c rest ih =>
    refine .cons ?_ (ih (c :: before))
    by_cases hsigma : c = 'Σ'
    · subst hsigma
      rw [beq_self_eq_true, if_pos rfl]
      split
      · exact .inr ⟨rfl, rfl⟩
      · exact .inl rfl
    · rw [beq_eq_false_iff_ne.mpr hsigma]
      exact .inl rfl

/-- **A stretch of a text** is lowered if the text is. -/
theorem IsLowered.append_inv {r : List Char} (h : IsLowered (s ++ r) t) :
    ∃ t₁ t₂, t = t₁ ++ t₂ ∧ IsLowered s t₁ ∧ IsLowered r t₂ := by
  induction s generalizing t with
  | nil => exact ⟨[], t, rfl, .nil, h⟩
  | cons c rest ih =>
    obtain _ | ⟨hc, h⟩ := h
    obtain ⟨t₁, t₂, rfl, h₁, h₂⟩ := ih h
    exact ⟨_, t₂, (List.append_assoc ..).symm, .cons hc h₁, h₂⟩

theorem IsLowered.eq_self (h : IsLowered s t) (hs : ∀ c ∈ s, isNumeralPart c = true) : t = s := by
  induction h with
  | nil => rfl
  | @cons c s image t hc h ih =>
    obtain ⟨hpart, hs⟩ := List.forall_mem_cons.mp hs
    rcases hc with rfl | ⟨rfl, rfl⟩
    · rw [lowerChar_of_isNumeralPart hpart, ih hs, List.singleton_append]
    · exact absurd hpart (by decide +kernel)

theorem IsLowered.isNumeralPart (h : IsLowered s t) (ht : ∀ c ∈ t, isNumeralPart c = true) :
    ∀ c ∈ s, isNumeralPart c = true := by
  induction h with
  | nil => exact ht
  | @cons c s image t hc h ih =>
    obtain ⟨himage, ht⟩ := List.forall_mem_append.mp ht
    refine List.forall_mem_cons.mpr ⟨?_, ih ht⟩
    rcases hc with rfl | ⟨rfl, rfl⟩
    · exact isNumeralPart_of_lowerChar himage
    · exact absurd (himage 'ς' (List.mem_singleton_self _)) (by decide +kernel)

/-- **Lower case changes no numeral**, and makes none. -/
theorem IsLowered.readInt?_eq (h : IsLowered s t) : readInt? t = readInt? s := by
  by_cases hs : ∀ c ∈ s, Text.isNumeralPart c = true
  · rw [h.eq_self hs]
  · have hnone : readInt? s = none :=
      Option.eq_none_iff_forall_ne_some.mpr fun n hn => hs (isNumeralPart_of_readInt? hn)
    rw [hnone]
    exact Option.eq_none_iff_forall_ne_some.mpr fun n hn =>
      hs (h.isNumeralPart (isNumeralPart_of_readInt? hn))

/-- **The crosses of a text** are those of the text in lower case. -/
theorem IsLowered.not_mem_cross (h : IsLowered s t) (hs : ∀ c ∈ s, ¬IsCross c) : 'x' ∉ t := by
  induction h with
  | nil => exact List.not_mem_nil
  | @cons c s image t hc h ih =>
    obtain ⟨hcross, hs⟩ := List.forall_mem_cons.mp hs
    refine List.mem_append.not.mpr (not_or.mpr ⟨fun hx => ?_, ih hs⟩)
    rcases hc with rfl | ⟨rfl, rfl⟩
    · exact hcross (isCross_of_mem_lowerChar hx)
    · exact absurd hx (by decide)

/-- What stands before and behind a cross is lowered by itself. -/
theorem IsLowered.cross_inv {r : List Char} (hc : IsCross c) (h : IsLowered (s ++ c :: r) t) :
    ∃ t₁ t₂, t = t₁ ++ 'x' :: t₂ ∧ IsLowered s t₁ ∧ IsLowered r t₂ := by
  obtain ⟨t₁, t', rfl, h₁, h'⟩ := h.append_inv
  cases h' with
  | @cons _ _ image t₂ himage h₂ =>
    rcases himage with rfl | ⟨rfl, -⟩
    · rw [lowerChar_of_isCross hc]
      exact ⟨t₁, t₂, rfl, h₁, h₂⟩
    · exact absurd hc (by decide)

end Scribe.Text
