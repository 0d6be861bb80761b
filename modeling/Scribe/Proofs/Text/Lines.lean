import Scribe.Proofs.Text.Quoted
import Scribe.Text.Blank

/-!
# Lines and comments

**The lines of a text** in each of the four languages, and what stands on them. A line ends where
its language says so, which need not be where it was meant to: a carriage return ends one, some
languages have separators of their own, and in Java an escape may stand for any of these
(`Scribe.Text.Dialect.lines?`).

A line is blank, or a comment, or code (`Scribe.Text.Dialect.isComment`,
`Scribe.Text.Dialect.isCode`). A comment is one that goes on to the end of the line. Where texts are
put together, two statements tell the lines:

* `Scribe.Text.Dialect.splitLines_append_end` – the lines up to a line end, and those behind it;
* `Scribe.Text.Dialect.splitLines_append_plain` – a text without line ends goes in front of the
  first line.

A text **has code** if one of its lines is code (`Scribe.Text.Dialect.HasCode`). It may begin with a
name that is anything at all; what is behind the name is code then, unless the last line of the name
begins a comment (`Scribe.Text.Dialect.hasCode_of_shows`).
-/

namespace Scribe.Text

/-- Lines with a text in front of the first one. -/
def putBefore (front : List Char) : List (List Char) → List (List Char)
  | [] => [front]
  | line :: rest => (front ++ line) :: rest

namespace Dialect

/-! ### Lines -/

/-- **The lines of a text**, without the characters that end them. A carriage return and a line feed
behind it are one line end. There is no line behind the last line end. -/
def splitLines (d : Dialect) : List Char → List (List Char)
  | [] => []
  | c :: rest =>
    if d.lineEnds.contains c then
      if c == '\r' && rest.head? == some '\n' then d.splitLines rest else [] :: d.splitLines rest
    else putBefore [c] (d.splitLines rest)

/-- **The lines of a program**, once its Unicode escapes have been replaced where that comes first.
There are none if one of the escapes is broken off. -/
def lines? (d : Dialect) (text : List Char) : Option (List (List Char)) :=
  (d.translate text).map d.splitLines

/-- The end of a text that stands on its last line. -/
def lastLine (d : Dialect) (text : List Char) : List Char :=
  text.rtakeWhile fun c => !d.lineEnds.contains c

/-! ### What stands on a line -/

/-- The characters that begin a comment up to the end of the line. -/
def commentMark : Dialect → List Char
  | .python => ['#']
  | .javaScript | .java | .csharp => ['/', '/']

/-- The blank characters that may stand in front of what a line says. -/
def isMargin : Dialect → Char → Bool
  | .python, c | .java, c => [' ', '\t', '\x0c'].contains c
  | .javaScript, c =>
    c == '\ufeff' || isWhiteSpace c && c != '\u0085' && !(lineEnds .javaScript).contains c
  | .csharp, c => isWhiteSpace c && !(lineEnds .csharp).contains c

/-- **Whether a line is a comment.** -/
def isComment (d : Dialect) (line : List Char) : Bool :=
  d.commentMark.isPrefixOf (line.dropWhile d.isMargin)

/-- **Whether a line is code**: it is neither blank nor a comment. -/
def isCode (d : Dialect) (line : List Char) : Bool :=
  !line.all d.isMargin && !d.isComment line

/-! ### Lines of texts put together -/

section

variable {d : Dialect} {c : Char} {text rest : List Char}

theorem lineFeed_mem_lineEnds (d : Dialect) : '\n' ∈ d.lineEnds := by
  cases d <;> decide

theorem splitLines_cons_of_notMem (hc : c ∉ d.lineEnds) :
    d.splitLines (c :: rest) = putBefore [c] (d.splitLines rest) := by
  rw [splitLines, if_neg (by simpa using hc)]

/-- A line end ends the line before it, unless a line feed follows that belongs to it. -/
theorem splitLines_cons_of_mem (hc : c ∈ d.lineEnds) (hpair : c = '\r' → rest.head? ≠ some '\n') :
    d.splitLines (c :: rest) = [] :: d.splitLines rest := by
  rw [splitLines, if_pos (by simpa using hc), if_neg (by simpa using hpair)]

theorem putBefore_ne_nil (front : List Char) (lines : List (List Char)) :
    putBefore front lines ≠ [] := by
  cases lines <;> exact List.cons_ne_nil _ _

theorem putBefore_putBefore (front : List Char) (lines : List (List Char)) :
    putBefore [c] (putBefore front lines) = putBefore (c :: front) lines := by
  cases lines <;> rfl

theorem putBefore_append {lines : List (List Char)} (h : lines ≠ []) (front : List Char)
    (more : List (List Char)) :
    putBefore front (lines ++ more) = putBefore front lines ++ more := by
  cases lines with
  | nil => exact absurd rfl h
  | cons line lines => rfl

theorem splitLines_ne_nil (h : text ≠ []) : d.splitLines text ≠ [] := by
  induction text with
  | nil => exact absurd rfl h
  | cons c rest ih =>
    rw [splitLines]
    split
    · split
      · next hpair =>
        refine ih fun hnil => ?_
        simp [hnil] at hpair
      · exact List.cons_ne_nil _ _
    · exact putBefore_ne_nil _ _

/-- **The lines up to a line end, and those behind it.** -/
theorem splitLines_append_end {e : Char} (he : e ∈ d.lineEnds)
    (hpair : e = '\r' → rest.head? ≠ some '\n') :
    d.splitLines (text ++ e :: rest) = d.splitLines (text ++ [e]) ++ d.splitLines rest := by
  induction text with
  | nil =>
    rw [List.nil_append, List.nil_append, splitLines_cons_of_mem he hpair,
      splitLines_cons_of_mem he (by simp)]
    rfl
  | cons c text ih =>
    have hhead : (text ++ e :: rest).head? = (text ++ [e]).head? := by cases text <;> rfl
    rw [List.cons_append, List.cons_append, splitLines, splitLines, hhead, ih]
    split
    · split <;> rfl
    · exact putBefore_append (splitLines_ne_nil (by simp)) [c] _

/-- **A text without line ends** goes in front of the first line. -/
theorem splitLines_append_plain (hplain : ∀ c ∈ text, c ∉ d.lineEnds) (hne : text ≠ []) :
    d.splitLines (text ++ rest) = putBefore text (d.splitLines rest) := by
  induction text with
  | nil => exact absurd rfl hne
  | cons c text ih =>
    obtain ⟨hc, htext⟩ := List.forall_mem_cons.mp hplain
    rw [List.cons_append, splitLines_cons_of_notMem hc]
    cases text with
    | nil => rfl
    | cons c' text => rw [ih htext (List.cons_ne_nil _ _), putBefore_putBefore]

/-- A text without escapes, as far as its language replaces any, stands as it is. -/
theorem translate_append_plain (hplain : '\\' ∉ text) :
    d.translate (text ++ rest) = (d.translate rest).map (text ++ ·) := by
  cases d with
  | java => exact translateFrom_append hplain
  | javaScript | python | csharp => rfl

/-- **A line without line ends and escapes** is the first line of what begins with it. -/
theorem lines?_append_line (hends : ∀ c ∈ text, c ∉ d.lineEnds) (hplain : '\\' ∉ text)
    (hne : text ≠ []) :
    d.lines? (text ++ '\n' :: rest) = (d.lines? rest).map (text :: ·) := by
  rw [lines?, ← List.singleton_append, ← List.append_assoc,
    translate_append_plain (by simpa using hplain), Option.map_map, lines?, Option.map_map]
  refine congrArg (Option.map · _) (funext fun rest => ?_)
  rw [Function.comp_apply, Function.comp_apply, List.append_assoc, List.singleton_append,
    splitLines_append_plain hends hne, splitLines_cons_of_mem (lineFeed_mem_lineEnds d) (by simp)]
  simp [putBefore]

/-- A text without line ends and escapes goes in front of the first line. -/
theorem lines?_append_plain (hends : ∀ c ∈ text, c ∉ d.lineEnds) (hplain : '\\' ∉ text)
    (hne : text ≠ []) :
    d.lines? (text ++ rest) = (d.lines? rest).map (putBefore text) := by
  rw [lines?, translate_append_plain hplain, Option.map_map, lines?, Option.map_map]
  exact congrArg (Option.map · _) (funext fun rest => splitLines_append_plain hends hne)

/-! ### Code in a text -/

/-- **Whether a text has code**: a line that is neither blank nor a comment. -/
def HasCode (d : Dialect) (text : List Char) : Prop :=
  ∃ lines, d.lines? text = some lines ∧ ∃ line ∈ lines, d.isCode line = true

/-- Where no escapes are replaced, the lines are those of the text itself. -/
theorem hasCode_iff (hd : d ≠ .java) :
    d.HasCode text ↔ ∃ line ∈ d.splitLines text, d.isCode line = true := by
  have hlines : d.lines? text = some (d.splitLines text) := by
    cases d with
    | java => exact absurd rfl hd
    | javaScript | python | csharp => rfl
  rw [HasCode, hlines]
  simp

/-- A text has code in front of a line end, or behind it. -/
theorem hasCode_append_end (hd : d ≠ .java) {e : Char} (he : e ∈ d.lineEnds)
    (hpair : e = '\r' → rest.head? ≠ some '\n') :
    d.HasCode (text ++ e :: rest) ↔ d.HasCode (text ++ [e]) ∨ d.HasCode rest := by
  rw [hasCode_iff hd, hasCode_iff hd, hasCode_iff hd, splitLines_append_end he hpair]
  simp only [List.mem_append, or_and_right, exists_or]

/-- **An indent** makes no code. -/
theorem hasCode_append_margin (hd : d ≠ .java) (hmargin : ∀ c ∈ text, d.isMargin c = true)
    (hends : ∀ c ∈ text, c ∉ d.lineEnds) : d.HasCode (text ++ rest) ↔ d.HasCode rest := by
  have hcode (line : List Char) : d.isCode (text ++ line) = d.isCode line := by
    have hall : text.all d.isMargin = true := List.all_eq_true.mpr hmargin
    rw [isCode, isCode, isComment, isComment, List.dropWhile_append_of_pos hmargin, List.all_append,
      hall, Bool.true_and]
  rw [hasCode_iff hd, hasCode_iff hd]
  by_cases hne : text = []
  · rw [hne, List.nil_append]
  · rw [splitLines_append_plain hends hne]
    cases d.splitLines rest with
    | nil =>
      have hblank : d.isCode text = d.isCode [] := by simpa using hcode []
      have hempty : d.isCode [] = false := rfl
      simp [putBefore, hblank, hempty]
    | cons line lines => simp [putBefore, hcode]

/-- A comment on one line is no code. -/
theorem not_hasCode_of_isComment (hd : d ≠ .java) (hcomment : d.isComment text = true)
    (hends : ∀ c ∈ text, c ∉ d.lineEnds) : ¬d.HasCode (text ++ ['\n']) := by
  have hne : text ≠ [] := by
    rintro rfl
    revert hcomment
    cases d <;> decide
  rw [hasCode_iff hd, splitLines_append_plain hends hne,
    splitLines_cons_of_mem (lineFeed_mem_lineEnds d) (by simp)]
  simp [putBefore, splitLines, isCode, hcomment]

/-! ### Code behind a name -/

/-- **Whether code can be seen behind a name**: the last line of the name does not begin a
comment. -/
def shows (d : Dialect) (name : List Char) : Bool :=
  !d.isComment (d.lastLine name)

/-- The last line of a text stands at its end, behind a line end if there is anything else. -/
theorem exists_lastLine (d : Dialect) (text : List Char) :
    (∀ c ∈ d.lastLine text, c ∉ d.lineEnds) ∧ ∃ before, text = before ++ d.lastLine text ∧
      (before = [] ∨ ∃ b, ∃ e ∈ d.lineEnds, before = b ++ [e]) := by
  induction text using List.reverseRecOn with
  | nil => exact ⟨by simp [lastLine], [], by simp [lastLine], .inl rfl⟩
  | append_singleton text c ih =>
    by_cases hc : c ∈ d.lineEnds
    · have hlast : d.lastLine (text ++ [c]) = [] := by
        rw [lastLine, List.rtakeWhile_concat_neg _ _ _ (by simpa using hc)]
      rw [hlast]
      exact ⟨by simp, text ++ [c], by simp, .inr ⟨text, c, hc, rfl⟩⟩
    · have hlast : d.lastLine (text ++ [c]) = d.lastLine text ++ [c] := by
        rw [lastLine, List.rtakeWhile_concat_pos _ _ _ (by simpa using hc), lastLine]
      obtain ⟨hends, before, hbefore, hcut⟩ := ih
      refine ⟨fun x hx => ?_, before, ?_, hcut⟩
      · rw [hlast, List.mem_append, List.mem_singleton] at hx
        rcases hx with hx | rfl
        · exact hends x hx
        · exact hc
      · rw [hlast, ← List.append_assoc, ← hbefore]

/-- What is not begun by a mark is not begun by it with a character behind it that the mark does not
hold. -/
theorem prefix_of_prefix_append {mark : List Char} (h : mark <+: text ++ rest)
    (hrest : ∀ x ∈ rest.head?, x ∉ mark) : mark <+: text := by
  rcases List.prefix_or_prefix_of_prefix h (List.prefix_append _ _) with h' | ⟨more, rfl⟩
  · exact h'
  · rw [List.prefix_append_right_inj] at h
    cases more with
    | nil => rw [List.append_nil]
    | cons x more =>
      obtain ⟨after, rfl⟩ := h
      exact absurd (by simp) (hrest x rfl)

/-- **What begins no comment is code** with a sign behind it that can be seen and is no part of the
mark of a comment. Blanks may stand between the two. -/
theorem isCode_of_sign {c : Char} {gap : List Char} (hcomment : d.isComment text = false)
    (hgap : ∀ x ∈ gap, d.isMargin x = true ∧ x ∉ d.commentMark)
    (hmargin : d.isMargin c = false) (hmark : c ∉ d.commentMark) :
    d.isCode (text ++ (gap ++ c :: rest)) = true := by
  have hall : (text ++ (gap ++ c :: rest)).all d.isMargin = false :=
    List.all_eq_false.mpr ⟨c, by simp, by simp [hmargin]⟩
  have hblank : (gap ++ c :: rest).dropWhile d.isMargin = c :: rest := by
    rw [List.dropWhile_append_of_pos fun x hx => (hgap x hx).1,
      List.dropWhile_cons_of_neg (by simp [hmargin])]
  have hprefix : ¬d.commentMark <+: text.dropWhile d.isMargin := by
    rw [← List.isPrefixOf_iff_prefix, ← isComment, hcomment]
    exact Bool.false_ne_true
  rw [isCode, hall, isComment, Bool.not_false, Bool.true_and, Bool.not_eq_true', ← Bool.not_eq_true,
    List.isPrefixOf_iff_prefix, List.dropWhile_append]
  intro h
  split at h
  · next hnil =>
    rw [hblank, ← List.nil_append (c :: rest), ← List.isEmpty_iff.mp hnil] at h
    exact hprefix (prefix_of_prefix_append h (by simpa using hmark))
  · refine hprefix (prefix_of_prefix_append h fun x hx => ?_)
    cases gap with
    | nil =>
      obtain rfl : c = x := by simpa using hx
      exact hmark
    | cons y gap =>
      obtain rfl : y = x := by simpa using hx
      exact (hgap y List.mem_cons_self).2

/-- A line that begins no comment, with a sign of code behind it, is code in a text. -/
theorem hasCode_of_sign (hd : d ≠ .java) {c : Char} {gap : List Char}
    (hline : ∀ x ∈ text, x ∉ d.lineEnds) (hcomment : d.isComment text = false)
    (hgap : ∀ x ∈ gap, d.isMargin x = true ∧ x ∉ d.commentMark ∧ x ∉ d.lineEnds)
    (hmargin : d.isMargin c = false) (hmark : c ∉ d.commentMark) (hends : c ∉ d.lineEnds) :
    d.HasCode (text ++ (gap ++ c :: rest)) := by
  have hblank : ∀ x ∈ gap, d.isMargin x = true ∧ x ∉ d.commentMark := fun x hx =>
    ⟨(hgap x hx).1, (hgap x hx).2.1⟩
  have hplain : ∀ x ∈ text ++ (gap ++ [c]), x ∉ d.lineEnds := by
    simp only [List.forall_mem_append, List.forall_mem_singleton]
    exact ⟨hline, fun x hx => (hgap x hx).2.2, hends⟩
  rw [hasCode_iff hd, List.append_cons gap, ← List.append_assoc,
    splitLines_append_plain hplain (by simp)]
  cases d.splitLines rest with
  | nil => exact ⟨_, List.mem_cons_self, isCode_of_sign hcomment hblank hmargin hmark⟩
  | cons line lines =>
    refine ⟨_, List.mem_cons_self, ?_⟩
    rw [List.append_assoc, ← List.append_cons]
    exact isCode_of_sign hcomment hblank hmargin hmark

/-- **Code behind a name is seen** unless the name hides it. -/
theorem hasCode_of_shows (hd : d ≠ .java) {c : Char} {gap : List Char}
    (hshows : d.shows text = true)
    (hgap : ∀ x ∈ gap, d.isMargin x = true ∧ x ∉ d.commentMark ∧ x ∉ d.lineEnds)
    (hmargin : d.isMargin c = false) (hmark : c ∉ d.commentMark) (hends : c ∉ d.lineEnds) :
    d.HasCode (text ++ (gap ++ c :: rest)) := by
  obtain ⟨hlast, before, htext, hcut⟩ := exists_lastLine d text
  have hcomment : d.isComment (d.lastLine text) = false := by simpa [shows] using hshows
  have hcode : d.HasCode (d.lastLine text ++ (gap ++ c :: rest)) :=
    hasCode_of_sign hd hlast hcomment hgap hmargin hmark hends
  rcases hcut with rfl | ⟨b, e, he, rfl⟩
  · rwa [htext, List.nil_append]
  · -- the sign stands between the line end of the name and any line feed
    have hpair : e = '\r' → (d.lastLine text ++ (gap ++ c :: rest)).head? ≠ some '\n' := by
      rintro - hhead
      have hfirst : (d.lastLine text ++ (gap ++ [c])).head? = some '\n' := by
        rw [← hhead]
        cases d.lastLine text <;> cases gap <;> rfl
      have hplain : ∀ x ∈ d.lastLine text ++ (gap ++ [c]), x ∉ d.lineEnds := by
        simp only [List.forall_mem_append, List.forall_mem_singleton]
        exact ⟨hlast, fun x hx => (hgap x hx).2.2, hends⟩
      exact hplain _ (List.mem_of_mem_head? hfirst) (lineFeed_mem_lineEnds d)
    rw [htext, List.append_assoc, List.append_assoc, List.singleton_append,
      hasCode_append_end hd he hpair]
    exact .inr hcode

end

end Dialect

end Scribe.Text
