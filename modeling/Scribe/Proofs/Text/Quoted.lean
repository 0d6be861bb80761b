import Scribe.Proofs.Text.Literal

/-!
# String literals read back

What `Scribe.Text.quote` writes is read back by the grammar of its language as the text it was
written from, whatever follows the literal. The proof goes character by character: what
`Scribe.Text.Dialect.escape` writes for one is read as that one
(`Scribe.Text.Dialect.readBody_escape`), unless it is a line end that is left as it is
(`Scribe.Text.Dialect.leavesLineEnd`).

* `Scribe.Text.Dialect.escape_cases` – the four ways in which a character is written;
* `Scribe.Text.readLiteral_quoted` – JavaScript, Python and Java: every text reads back;
* `Scribe.Text.readLiteral_quoted_csharp` – C#: a text reads back exactly if it does not hold
  U+0085, a line end in C# which is written as it is.
-/

namespace Scribe.Text

/-! ### Numbers of fixed length -/

theorem digitIn?_hexDigit {base n : ℕ} (hbase : base ≤ 16) (hn : n < base) :
    digitIn? base (hexDigit n) = some n := by
  have hdigits : ∀ m < 16,
      (if '0' ≤ hexDigit m ∧ hexDigit m ≤ '9' then some ((hexDigit m).toNat - 48)
      else if 'a' ≤ hexDigit m ∧ hexDigit m ≤ 'f' then some ((hexDigit m).toNat - 87)
      else if 'A' ≤ hexDigit m ∧ hexDigit m ≤ 'F' then some ((hexDigit m).toNat - 55)
      else none) = some m := by
    decide
  rw [digitIn?, hdigits n (by omega), Option.filter_some, if_pos (by simpa using hn)]

theorem length_fixedDigits (base count n : ℕ) : (fixedDigits base count n).length = count := by
  induction count generalizing n with
  | zero => rfl
  | succ count ih => rw [fixedDigits, List.length_append, ih, List.length_singleton]

theorem drop_fixedDigits (base count n : ℕ) (rest : List Char) :
    (fixedDigits base count n ++ rest).drop count = rest :=
  List.drop_left' (length_fixedDigits base count n)

theorem hexDigit_of_le {n : ℕ} (hn : 16 ≤ n) : hexDigit n = '*' := by
  simp only [hexDigit, Nat.digitChar]
  repeat rw [if_neg (by omega)]

theorem hexDigit_ne (n : ℕ) : hexDigit n ≠ '\\' ∧ hexDigit n ≠ 'u' := by
  by_cases hn : n < 16
  · revert n
    decide
  · rw [hexDigit_of_le (Nat.le_of_not_lt hn)]
    decide

theorem not_mem_fixedDigits (base count n : ℕ) : '\\' ∉ fixedDigits base count n := by
  induction count generalizing n with
  | zero => simp [fixedDigits]
  | succ count ih => simp [fixedDigits, ih, (hexDigit_ne (n % base)).1.symm]

/-- The digits of a number that fits are read as digits, and denote it. -/
theorem filterMap_digitIn?_fixedDigits {base count n : ℕ} (hbase : base ≤ 16)
    (hn : n < base ^ count) :
    (∀ c ∈ fixedDigits base count n, (digitIn? base c).isSome) ∧
      ofDigits base ((fixedDigits base count n).filterMap (digitIn? base)) = n := by
  induction count generalizing n with
  | zero =>
    obtain rfl : n = 0 := by simpa using hn
    exact ⟨by simp [fixedDigits], rfl⟩
  | succ count ih =>
    have hpos : 0 < base := by
      rcases Nat.eq_zero_or_pos base with rfl | h
      · simp at hn
      · exact h
    have hlast : digitIn? base (hexDigit (n % base)) = some (n % base) :=
      digitIn?_hexDigit hbase (Nat.mod_lt n hpos)
    obtain ⟨hdigits, hvalue⟩ := ih
      (Nat.div_lt_of_lt_mul (by rwa [Nat.pow_succ, Nat.mul_comm] at hn))
    constructor
    · intro c hc
      rcases List.mem_append.mp hc with hc | hc
      · exact hdigits c hc
      · rw [List.mem_singleton.mp hc, hlast]
        rfl
    · rw [fixedDigits, List.filterMap_append, ofDigits, List.foldl_append]
      change List.foldl _ (ofDigits base _) _ = n
      rw [hvalue, List.filterMap_cons, hlast]
      exact Nat.div_add_mod n base

theorem charOf?_toNat (c : Char) : charOf? c.toNat = some c := by
  have hvalid : c.toNat.isValidChar := c.valid
  rw [charOf?, if_pos hvalid, Char.ofNat_toNat]

/-- **A character by its number**, in as many digits as are looked for. -/
theorem numberedChar?_fixedDigits {base : ℕ} {c : Char} (least count : ℕ) (rest : List Char)
    (hbase : base ≤ 16) (hc : c.toNat < base ^ count) (hleast : least ≤ count) :
    numberedChar? base least count (fixedDigits base count c.toNat ++ rest) = some (c, count) := by
  obtain ⟨hdigits, hvalue⟩ := filterMap_digitIn?_fixedDigits hbase hc
  have hlength := length_fixedDigits base count c.toNat
  have htake : (fixedDigits base count c.toNat ++ rest).take count =
      fixedDigits base count c.toNat := by
    rw [List.take_append_of_le_length hlength.ge, List.take_of_length_le hlength.le]
  have hnumber : leadingNumber base count (fixedDigits base count c.toNat ++ rest) =
      (c.toNat, count) := by
    rw [leadingNumber, htake, List.takeWhile_eq_self_iff.mpr hdigits, hvalue, hlength]
  rw [numberedChar?, hnumber]
  simp only [hleast, if_true, charOf?_toNat, Option.map_some]

/-! ### Escapes -/

namespace Dialect

variable {d : Dialect} {c : Char} {rest : List Char}

/-- **The escapes that all dialects share**, that of the quote included: the letter after the
backslash, and the character that it stands for. -/
def sharedEscapes (d : Dialect) : List (Char × Char) :=
  [('\\', '\\'), ('n', '\n'), ('r', '\r'), ('t', '\t'), (d.quoteMark, d.quoteMark)]

theorem readEscape_letter {x y : Char} (h : (x, y) ∈ d.sharedEscapes) :
    d.readEscape (x :: rest) = some ([y], 1) := by
  simp only [sharedEscapes, List.mem_cons, Prod.mk.injEq, List.not_mem_nil, or_false] at h
  rcases h with ⟨rfl, rfl⟩ | ⟨rfl, rfl⟩ | ⟨rfl, rfl⟩ | ⟨rfl, rfl⟩ | ⟨rfl, rfl⟩ <;> cases d <;> rfl

/-- Four hexadecimal digits after a `u`, where they are not replaced beforehand. -/
theorem readEscape_hex (hd : d ≠ java) (hc : c.toNat < 0x10000) :
    d.readEscape ('u' :: (fixedDigits 16 4 c.toNat ++ rest)) = some ([c], 5) := by
  have hread := numberedChar?_fixedDigits 4 4 rest (le_refl 16) hc le_rfl
  have hbrace : (fixedDigits 16 4 c.toNat ++ rest).head? ≠ some '\x7b' := by
    intro h
    have hmem : '\x7b' ∈ fixedDigits 16 4 c.toNat := List.mem_of_mem_head? h
    exact absurd ((filterMap_digitIn?_fixedDigits (le_refl 16) hc).1 _ hmem) (by decide)
  have hlookup : d.letterEscapes.lookup 'u' = none ∧ d.hexEscapes.lookup 'u' = some (4, 4) := by
    cases d with
    | java => exact absurd rfl hd
    | javaScript | python | csharp => decide
  simp only [readEscape, hlookup.1, hlookup.2]
  rw [if_neg (by simp only [Bool.and_eq_true, beq_iff_eq, not_and]; exact fun _ => hbrace), hread]
  rfl

/-- Three octal digits, which reach as far as ASCII. -/
theorem readEscape_octal (hc : c.toNat < 0x80) :
    java.readEscape (fixedDigits 8 3 c.toNat ++ rest) = some ([c], 3) := by
  have hread := numberedChar?_fixedDigits 1 3 rest (by omega : 8 ≤ 16)
    (by omega : c.toNat < 8 ^ 3) (by omega)
  have hdigits : fixedDigits 8 3 c.toNat = [hexDigit (c.toNat / 8 / 8 % 8),
      hexDigit (c.toNat / 8 % 8), hexDigit (c.toNat % 8)] := rfl
  have hfirst : hexDigit (c.toNat / 8 / 8 % 8) = '0' ∨ hexDigit (c.toNat / 8 / 8 % 8) = '1' := by
    rcases (by omega : c.toNat / 8 / 8 % 8 = 0 ∨ c.toNat / 8 / 8 % 8 = 1) with h | h <;> rw [h]
    · exact Or.inl rfl
    · exact Or.inr rfl
  -- a first digit up to 3 lets the grammar take three digits, and all three are there
  rw [hdigits] at hread ⊢
  rcases hfirst with h | h <;> rw [h] at hread ⊢ <;>
    exact congrArg (Option.map fun x : Char × ℕ => ([x.1], x.2)) hread

/-! ### Characters -/

/-- **What is written for a character**: one of the shared escapes, the character itself, or its
number after a backslash, in octal or in hexadecimal digits. -/
theorem escape_cases (d : Dialect) (c : Char) :
    (∃ x, (x, c) ∈ d.sharedEscapes ∧ d.escape c = ['\\', x]) ∨
      (c ≠ '\\' ∧ c ≠ d.quoteMark ∧ d.escape c = [c]) ∨
      (d = java ∧ c.toNat < 0x80 ∧ d.escape c = '\\' :: fixedDigits 8 3 c.toNat) ∨
      (d ≠ java ∧ c.toNat < 0x10000 ∧ d.escape c = '\\' :: 'u' :: fixedDigits 16 4 c.toNat) := by
  rw [escape]
  by_cases hback : c = '\\'
  · exact Or.inl ⟨'\\', by simp [sharedEscapes, hback], by simp [hback]⟩
  by_cases hfeed : c = '\n'
  · exact Or.inl ⟨'n', by simp [sharedEscapes, hfeed], by simp [hfeed]⟩
  by_cases hreturn : c = '\r'
  · exact Or.inl ⟨'r', by simp [sharedEscapes, hreturn], by simp [hreturn]⟩
  by_cases htab : c = '\t'
  · exact Or.inl ⟨'t', by simp [sharedEscapes, htab], by simp [htab]⟩
  by_cases hquote : c = d.quoteMark
  · exact Or.inl ⟨c, by simp [sharedEscapes, ← hquote],
      by simp [hback, hfeed, hreturn, htab, ← hquote]⟩
  simp only [beq_iff_eq, hback, hfeed, hreturn, htab, hquote, if_false]
  by_cases hneeds : needsEscape c = true
  · have hcode : c.toNat < 0x80 ∨ c.toNat = 0x2028 ∨ c.toNat = 0x2029 := by
      simp only [needsEscape, Bool.or_eq_true, decide_eq_true_eq, beq_iff_eq] at hneeds
      omega
    rw [if_pos hneeds]
    cases d with
    | java =>
      by_cases hwide : c.toNat > 0xFF
      · exact Or.inr (Or.inl ⟨hback, hquote, if_pos hwide⟩)
      · exact Or.inr (Or.inr (Or.inl ⟨rfl, by omega, if_neg hwide⟩))
    | javaScript | python | csharp =>
      exact Or.inr (Or.inr (Or.inr ⟨by decide, by omega, rfl⟩))
  · exact Or.inr (Or.inl ⟨hback, hquote, if_neg hneeds⟩)

/-- A line end that is left as it is. -/
def leavesLineEnd (d : Dialect) (c : Char) : Bool :=
  d.lineEnds.contains c && d.escape c == [c]

theorem leavesLineEnd_csharp : csharp.leavesLineEnd c = (c == '\u0085') := by
  by_cases hc : c ∈ csharp.lineEnds
  · simp only [lineEnds, List.mem_cons, List.not_mem_nil, or_false] at hc
    rcases hc with rfl | rfl | rfl | rfl | rfl <;> decide
  · have hne : c ≠ '\u0085' := by
      rintro rfl
      exact hc (by decide)
    simp [leavesLineEnd, hc, hne]

theorem leavesLineEnd_eq_false (hd : d ≠ csharp) : d.leavesLineEnd c = false := by
  by_cases hc : c ∈ d.lineEnds
  · cases d with
    | csharp => exact absurd rfl hd
    | javaScript =>
      simp only [lineEnds, List.mem_cons, List.not_mem_nil, or_false] at hc
      rcases hc with rfl | rfl | rfl | rfl <;> decide
    | python | java =>
      simp only [lineEnds, List.mem_cons, List.not_mem_nil, or_false] at hc
      rcases hc with rfl | rfl <;> decide
  · simp [leavesLineEnd, hc]

theorem ne_of_mem_lineEnds (h : c ∈ d.lineEnds) : c ≠ d.quoteMark ∧ c ≠ '\\' := by
  have hall : d.lineEnds.all fun x => x != d.quoteMark && x != '\\' := by cases d <;> rfl
  simpa using List.all_eq_true.mp hall c h

theorem readBody_backslash {text value : List Char} {count : ℕ}
    (h : d.readEscape text = some (value, count)) :
    d.readBody ('\\' :: text) =
      (d.readBody (text.drop count)).map fun r => (value ++ r.1, r.2) := by
  have hquote : '\\' ≠ d.quoteMark := by cases d <;> decide
  rw [readBody, if_neg hquote, if_pos rfl, h]

theorem readBody_plain (hquote : c ≠ d.quoteMark) (hback : c ≠ '\\') (hends : c ∉ d.lineEnds) :
    d.readBody (c :: rest) = (d.readBody rest).map fun r => (c :: r.1, r.2) := by
  rw [readBody, if_neg hquote, if_neg hback, if_neg (by simpa using hends)]

/-- **What is written for a character is read as that character**, unless it is a line end that is
left as it is. -/
theorem readBody_escape (hends : d.leavesLineEnd c = false) :
    d.readBody (d.escape c ++ rest) = (d.readBody rest).map fun r => (c :: r.1, r.2) := by
  rcases escape_cases d c with ⟨x, hx, hescape⟩ | ⟨hback, hquote, hescape⟩ |
    ⟨rfl, hcode, hescape⟩ | ⟨hd, hcode, hescape⟩
  · rw [hescape]
    exact readBody_backslash (readEscape_letter hx)
  · have hmem : c ∉ d.lineEnds := fun hmem => by simp [leavesLineEnd, hescape, hmem] at hends
    rw [hescape]
    exact readBody_plain hquote hback hmem
  · rw [hescape, List.cons_append, readBody_backslash (readEscape_octal hcode), drop_fixedDigits]
    rfl
  · rw [hescape, List.cons_append, List.cons_append, readBody_backslash (readEscape_hex hd hcode),
      List.drop_succ_cons, drop_fixedDigits]
    rfl

/-- **A whole literal**, from behind its opening quote: read back unless a line end is left in
it. -/
theorem readBody_flatMap_escape (s : List Char) :
    d.readBody (s.flatMap d.escape ++ d.quoteMark :: rest) =
      if s.any d.leavesLineEnd then none else some (s, rest) := by
  induction s with
  | nil => simp [readBody]
  | cons c s ih =>
    rw [List.flatMap_cons, List.append_assoc, List.any_cons]
    cases hends : d.leavesLineEnd c with
    | true =>
      obtain ⟨hmem, hasIs⟩ : c ∈ d.lineEnds ∧ d.escape c = [c] := by
        simpa [leavesLineEnd] using hends
      obtain ⟨hquote, hback⟩ := ne_of_mem_lineEnds hmem
      rw [hasIs, List.singleton_append, readBody, if_neg hquote, if_neg hback,
        if_pos (by simpa using hmem), Bool.true_or, if_pos rfl]
    | false =>
      rw [readBody_escape hends, ih, Bool.false_or]
      split <;> rfl

theorem quote_append (d : Dialect) (s rest : List Char) :
    quote d s ++ rest = d.quoteMark :: (s.flatMap d.escape ++ d.quoteMark :: rest) := by
  simp [quote]

theorem readTranslated_quote {r : List Char} (s : List Char) (hr : r.head? ≠ some d.quoteMark) :
    d.readTranslated (quote d s ++ r) = if s.any d.leavesLineEnd then none else some (s, r) := by
  have hlong : (s.flatMap d.escape ++ d.quoteMark :: r).take 2 ≠ [d.quoteMark, d.quoteMark] := by
    cases s with
    | nil =>
      cases r with
      | nil => simp
      | cons x r => simpa using hr
    | cons c s =>
      have hback : '\\' ≠ d.quoteMark := by cases d <;> decide
      rcases escape_cases d c with ⟨x, -, hescape⟩ | ⟨-, hc, hescape⟩ | ⟨-, -, hescape⟩ |
        ⟨-, -, hescape⟩
      · simp [hescape, hback]
      · simp [hescape, hc]
      · simp [hescape, hback]
      · simp [hescape, hback]
  rw [quote_append, readTranslated, if_neg (by simp [hlong]), readBody_flatMap_escape]

/-! ### Unicode escapes -/

theorem translateFrom_of_ne (even : Bool) (hc : c ≠ '\\') :
    translateFrom even (c :: rest) = (translateFrom true rest).map (c :: ·) := by
  rw [translateFrom, if_neg (by simp [hc])]
  rw [show (c != '\\' || !even) = true by simp [hc]]

/-- A text without backslashes stays as it is. -/
theorem translateFrom_append {text : List Char} (h : '\\' ∉ text) :
    translateFrom true (text ++ rest) = (translateFrom true rest).map (text ++ ·) := by
  induction text with
  | nil => simp
  | cons c text ih =>
    obtain ⟨hc, htext⟩ := not_or.mp (mt List.mem_cons.mpr h)
    rw [List.cons_append, translateFrom_of_ne true (Ne.symm hc), ih htext, Option.map_map]
    rfl

/-- A backslash and what it escapes stay as they are, and leave no backslash for what follows. -/
theorem translateFrom_backslash {x : Char} (hx : x ≠ 'u') :
    translateFrom true ('\\' :: x :: rest) = (translateFrom true rest).map ('\\' :: x :: ·) := by
  rw [translateFrom, if_neg (by simp [hx])]
  by_cases hback : x = '\\'
  · subst hback
    rw [translateFrom, if_neg (by simp), Option.map_map]
    rfl
  · rw [translateFrom_of_ne _ hback, Option.map_map]
    rfl

/-- Nothing that is written for a character starts a Unicode escape: a backslash is followed by the
letter of a shared escape or by an octal digit. -/
theorem translateFrom_escape (c : Char) :
    translateFrom true (java.escape c ++ rest) =
      (translateFrom true rest).map (java.escape c ++ ·) := by
  rcases escape_cases java c with ⟨x, hx, hescape⟩ | ⟨hback, -, hescape⟩ | ⟨-, -, hescape⟩ |
    ⟨hjava, -⟩
  · have hu : x ≠ 'u' := by
      rintro rfl
      simp [sharedEscapes, quoteMark] at hx
    rw [hescape]
    exact translateFrom_backslash hu
  · rw [hescape]
    exact translateFrom_append (by simpa using Ne.symm hback)
  · have hdigits : fixedDigits 8 3 c.toNat =
        hexDigit (c.toNat / 8 / 8 % 8) :: fixedDigits 8 2 c.toNat := rfl
    rw [hescape, hdigits, List.cons_append, List.cons_append,
      translateFrom_backslash (hexDigit_ne _).2,
      translateFrom_append (not_mem_fixedDigits 8 2 c.toNat), Option.map_map]
    rfl
  · exact absurd rfl hjava

/-- **A literal holds no Unicode escape**, so it stays as it is while what follows it is
replaced. -/
theorem translate_quote (s : List Char) :
    d.translate (quote d s ++ rest) = (d.translate rest).map (quote d s ++ ·) := by
  cases d with
  | javaScript | python | csharp => rfl
  | java =>
    have hbody : ∀ rest, translateFrom true (s.flatMap java.escape ++ rest) =
        (translateFrom true rest).map (s.flatMap java.escape ++ ·) := by
      induction s with
      | nil => simp
      | cons c s ih =>
        intro rest
        rw [List.flatMap_cons, List.append_assoc, translateFrom_escape, ih, Option.map_map]
        simp [Function.comp_def]
    have hmark : java.quoteMark ≠ '\\' := by decide
    rw [translate, translate, quote_append, translateFrom_of_ne true hmark, hbody,
      translateFrom_of_ne true hmark, Option.map_map, Option.map_map]
    simp only [Function.comp_def, quote_append]

end Dialect

/-! ### Literals -/

variable {rest r : List Char}

/-- **Every literal reads back**, whatever follows it, unless a line end is left in it. -/
theorem readLiteral_quote {d : Dialect} (s : List Char) (htranslate : d.translate rest = some r)
    (hr : r.head? ≠ some d.quoteMark) :
    d.readLiteral (quote d s ++ rest) = if s.any d.leavesLineEnd then none else some (s, r) := by
  rw [Dialect.readLiteral, Dialect.translate_quote, htranslate, Option.map_some, Option.bind_some,
    Dialect.readTranslated_quote s hr]

theorem toList_quoted (d : Dialect) (s : String) : (quoted d s).toList = quote d s.toList :=
  String.toList_ofList

/-- **JavaScript, Python and Java literals denote the text they were written from**: whatever
follows, the literal at the front is exactly what was written, and its value is the text. Only a
further quote may not follow, since three of them open a literal of another kind. -/
theorem readLiteral_quoted {d : Dialect} (hd : d ≠ .csharp) (s : String)
    (htranslate : d.translate rest = some r) (hr : r.head? ≠ some d.quoteMark) :
    d.readLiteral ((quoted d s).toList ++ rest) = some (s.toList, r) := by
  rw [toList_quoted, readLiteral_quote s.toList htranslate hr, if_neg]
  simp [Dialect.leavesLineEnd_eq_false hd]

/-- A text of a backslash, a `u`, digits and quotes, in a call with a Unicode escape behind it. -/
theorem readLiteral_quoted_java_path :
    Dialect.java ≠ .csharp ∧ Dialect.java.translate ");\\u0041".toList = some ");A".toList ∧
      (");A".toList).head? ≠ some Dialect.java.quoteMark ∧
      Dialect.java.readLiteral
        ((quoted .java "C:\\u0041\x011\"\u2028").toList ++ ");\\u0041".toList) =
          some ("C:\\u0041\x011\"\u2028".toList, ");A".toList) := by
  have htranslate : Dialect.java.translate ");\\u0041".toList = some ");A".toList := by cbv
  exact ⟨by decide, htranslate, by decide,
    readLiteral_quoted (by decide) _ htranslate (by decide)⟩

/-- **C# literals denote the text they were written from, unless it holds U+0085**: that character
ends a line in C#, and is written as it is. -/
theorem readLiteral_quoted_csharp (s : String) (hr : rest.head? ≠ some '"') :
    Dialect.csharp.readLiteral ((quoted .csharp s).toList ++ rest) =
      if '\u0085' ∈ s.toList then none else some (s.toList, rest) := by
  rw [toList_quoted, readLiteral_quote s.toList rfl hr]
  simp [Dialect.leavesLineEnd_csharp]

/-- A control character is read back, and so are both separators. -/
theorem readLiteral_quoted_csharp_separators :
    ([')'] : List Char).head? ≠ some '"' ∧
      Dialect.csharp.readLiteral ((quoted .csharp "a\x1bb\u2028\u2029\"").toList ++ [')']) =
        some ("a\x1bb\u2028\u2029\"".toList, [')']) :=
  ⟨by decide, (readLiteral_quoted_csharp _ (by decide)).trans (if_neg (by decide))⟩

/-- U+0085 alone makes a text whose C# literal is broken by a line end. -/
theorem readLiteral_quoted_csharp_nextLine :
    Dialect.csharp.readLiteral (quoted .csharp "\u0085").toList = none := by
  cbv

end Scribe.Text
