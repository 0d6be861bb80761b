import Scribe.Proofs.Program.Reading
import Scribe.Proofs.Text.Quoted

/-!
# Scanning a program

**The lexical rules** of the four languages, as far as brackets, literals and comments go. A scan
reads a text character by character. It knows where it is – in code, in a comment, in a literal –
and which brackets are open (`Scribe.Program.Scan`). It comes to nothing where a bracket closes that
is not the innermost one, where a line ends in a literal, and wherever it meets something that is
not treated here, so whatever it comes through is read in the same way by the full rules:

* a quote right behind a name would be part of a literal of another kind, and so would a quote right
  behind a literal;
* a literal with holes may hold names and calls without arguments there, and no escapes;
* Java replaces Unicode escapes before it looks for anything else, so it may have none anywhere.

The statements are about texts that are pieces of code (`Scribe.Program.Scans`) and about lines
(`Scribe.Program.Passes`). A text may hold literals, and these may hold line ends that their dialect
does not escape (`Scribe.Text.Dialect.leavesLineEnd`). Then the scan breaks off at such a line end,
inside of a literal (`Scribe.Program.Scan.BreaksOff`), and each statement says so.
-/

namespace Scribe.Program

/-- **The kinds of brackets.** -/
inductive Bracket where
  | round
  | square
  | curly
  deriving Repr, DecidableEq

/-- **Where a scan is** in a text. -/
inductive Mode where
  /-- In code, and if `tight`, right behind a name or a literal. -/
  | code (tight : Bool)
  /-- Behind a slash. -/
  | slash
  /-- Behind a dollar sign in front of a literal. -/
  | dollar
  | comment
  | literal
  /-- Behind a backslash in a literal. -/
  | escape
  /-- In a literal that has holes for code. -/
  | filled
  /-- Behind a dollar sign in such a literal. -/
  | filler
  | hole
  /-- Behind the opening bracket of a call in a hole. -/
  | call
  deriving Repr, DecidableEq

/-- **What a character does** to a scan. -/
inductive Act where
  | go (m : Mode)
  | opens (b : Bracket)
  | closes (b : Bracket)
  deriving Repr, DecidableEq

/-- What brackets do. -/
def bracketActs : List (Char × Act) :=
  [('(', .opens .round), (')', .closes .round), ('[', .opens .square), (']', .closes .square),
    ('\x7b', .opens .curly), ('\x7d', .closes .curly)]

/-- Characters that mean nothing beyond themselves in most places. -/
def plainMarks : List Char :=
  [' ', '.', ',', ';', ':', '=', '>', '+', '-', '*']

end Scribe.Program

/-! ### What characters do -/

namespace Scribe.Text.Dialect

open Program

/-- Characters of code that mean nothing beyond themselves. JavaScript takes an arrow of two hyphens
for a comment where a line begins with it, so it may have no hyphens. -/
def codeMarks : Dialect → List Char
  | .javaScript => plainMarks.erase '-'
  | .python | .java | .csharp => plainMarks

/-- What begins a comment. -/
def commentMarks : Dialect → List (Char × Mode)
  | .python => [('#', .comment)]
  | .javaScript | .java | .csharp => [('/', .slash)]

/-- What begins a literal. -/
def literalMarks : Dialect → List (Char × Mode)
  | .javaScript => [('\'', .literal), ('`', .filled)]
  | .python | .java => [('"', .literal)]
  | .csharp => [('"', .literal), ('$', .dollar)]

/-- The quote around a literal that has holes. -/
def filledMark : Dialect → Char
  | .javaScript => '`'
  | .python | .java | .csharp => '"'

/-- What begins a hole. -/
def holeMark : Dialect → Char × Mode
  | .javaScript => ('$', .filler)
  | .python | .java | .csharp => ('\x7b', .hole)

/-- What a character of code does, unless it begins a literal. -/
def readPlain (d : Dialect) (c : Char) : Option Act :=
  if isNameChar c then some (.go (.code true))
  else if d.codeMarks.contains c || d.lineEnds.contains c then some (.go (.code false))
  else (bracketActs.lookup c).or ((d.commentMarks.lookup c).map .go)

/-- What a character of code does. -/
def readCode (d : Dialect) (tight : Bool) (c : Char) : Option Act :=
  (d.readPlain c).or (if tight then none else (d.literalMarks.lookup c).map .go)

/-- **What a character does.** -/
def readChar (d : Dialect) : Mode → Char → Option Act
  | .code tight, c => d.readCode tight c
  | .slash, c => if c = '/' then some (.go .comment) else none
  | .dollar, c => if c = d.filledMark then some (.go .filled) else none
  | .comment, c =>
    if d.lineEnds.contains c then some (.go (.code false))
    else if d = .java && c = '\\' then none
    else some (.go .comment)
  | .literal, c =>
    if c = d.quoteMark then some (.go (.code true))
    else if c = '\\' then some (.go .escape)
    else if d.lineEnds.contains c then none
    else some (.go .literal)
  | .escape, c =>
    if d.lineEnds.contains c || d = .java && c = 'u' then none else some (.go .literal)
  | .filled, c =>
    if c = d.filledMark then some (.go (.code true))
    else if c = d.holeMark.1 then some (.go d.holeMark.2)
    else if c = '\\' || c = '\x7d' || d.lineEnds.contains c then none
    else some (.go .filled)
  | .filler, c => if c = '\x7b' then some (.go .hole) else none
  | .hole, c =>
    if isNameChar c || c = '.' then some (.go .hole)
    else if c = '(' then some (.go .call)
    else if c = '\x7d' then some (.go .filled)
    else none
  | .call, c => if c = ')' then some (.go .hole) else none

end Scribe.Text.Dialect

namespace Scribe.Program

open Text

/-! ### Scans -/

/-- **A scan**: where it is, and the brackets that are open, the innermost first. -/
structure Scan where
  mode : Mode
  brackets : List Bracket
  deriving Repr, DecidableEq

namespace Scan

/-- The scan at the beginning of a program, and where it should be at the end: in code, and with no
bracket open. -/
def start : Scan := ⟨.code false, []⟩

/-- The scan after an act; a bracket closes only the innermost one that is open. -/
def after (s : Scan) : Act → Option Scan
  | .go m => some { s with mode := m }
  | .opens b => some ⟨.code false, b :: s.brackets⟩
  | .closes b =>
    match s.brackets with
    | [] => none
    | innermost :: rest => if innermost = b then some ⟨.code false, rest⟩ else none

/-- **Scans** a text. -/
def run (d : Dialect) (s : Scan) : List Char → Option Scan
  | [] => some s
  | c :: rest => (d.readChar s.mode c).bind fun act => (s.after act).bind (run d · rest)

variable {d : Dialect} {s s' : Scan} {text more : List Char}

theorem run_append : s.run d (text ++ more) = (s.run d text).bind (run d · more) := by
  induction text generalizing s with
  | nil => rfl
  | cons c rest ih =>
    rw [List.cons_append, run, run, Option.bind_assoc]
    refine congrArg _ (funext fun act => ?_)
    rw [Option.bind_assoc]
    exact congrArg _ (funext fun s => ih)

/-- A scan goes on as long as what it reads changes only where it is. -/
theorem run_cons_of_go {m m' : Mode} {a : List Bracket} {c : Char}
    (h : d.readChar m c = some (.go m')) : run d ⟨m, a⟩ (c :: text) = run d ⟨m', a⟩ text := by
  rw [run, h]
  rfl

theorem run_cons_of_none {m : Mode} {a : List Bracket} {c : Char} (h : d.readChar m c = none) :
    run d ⟨m, a⟩ (c :: text) = none := by
  rw [run, h]
  rfl

/-- Brackets outside do not matter. -/
theorem after_frame {act : Act} (h : s.after act = some s') (outer : List Bracket) :
    after ⟨s.mode, s.brackets ++ outer⟩ act = some ⟨s'.mode, s'.brackets ++ outer⟩ := by
  cases act with
  | go m =>
    obtain rfl := Option.some.inj h
    rfl
  | opens b =>
    obtain rfl := Option.some.inj h
    rfl
  | closes b =>
    obtain ⟨m, _ | ⟨innermost, rest⟩⟩ := s
    · cases h
    · simp only [after] at h ⊢
      split at h
      · next hb =>
        obtain rfl := Option.some.inj h
        rw [List.cons_append]
        exact if_pos hb
      · cases h

/-- **Brackets outside do not matter.** -/
theorem run_frame (h : s.run d text = some s') (outer : List Bracket) :
    run d ⟨s.mode, s.brackets ++ outer⟩ text = some ⟨s'.mode, s'.brackets ++ outer⟩ := by
  induction text generalizing s with
  | nil =>
    obtain rfl := Option.some.inj h
    rfl
  | cons c rest ih =>
    obtain ⟨act, hact, h⟩ := Option.bind_eq_some_iff.mp h
    obtain ⟨next, hnext, h⟩ := Option.bind_eq_some_iff.mp h
    rw [run, hact, Option.bind_some, after_frame hnext, Option.bind_some]
    exact ih h

/-- **A scan breaks off**: it comes to a line end in a literal. -/
def BreaksOff (d : Dialect) (s : Scan) (text : List Char) : Prop :=
  ∃ before c after a, text = before ++ c :: after ∧ s.run d before = some ⟨.literal, a⟩ ∧
    c ∈ d.lineEnds

theorem run_eq_none_of_breaksOff (h : s.BreaksOff d text) : s.run d text = none := by
  obtain ⟨before, c, after, a, rfl, hrun, hc⟩ := h
  obtain ⟨hquote, hback⟩ := Dialect.ne_of_mem_lineEnds hc
  rw [run_append, hrun, Option.bind_some]
  exact run_cons_of_none (by simp [Dialect.readChar, hquote, hback, hc])

theorem BreaksOff.append (h : s.BreaksOff d text) (more : List Char) :
    s.BreaksOff d (text ++ more) := by
  obtain ⟨before, c, after, a, rfl, hrun, hc⟩ := h
  exact ⟨before, c, after ++ more, a, by simp, hrun, hc⟩

theorem BreaksOff.after (h : s'.BreaksOff d more) (hrun : s.run d text = some s') :
    s.BreaksOff d (text ++ more) := by
  obtain ⟨before, c, after, a, rfl, hbefore, hc⟩ := h
  refine ⟨text ++ before, c, after, a, by simp, ?_, hc⟩
  rw [run_append, hrun]
  exact hbefore

/-- **A scan reaches** another one at the end of a text, unless a line end is left in a literal. -/
structure Reaches (d : Dialect) (s : Scan) (text : List Char) (s' : Scan) : Prop where
  run : text.any d.leavesLineEnd = false → s.run d text = some s'
  breaksOff : text.any d.leavesLineEnd = true → s.BreaksOff d text

theorem reaches_of_run (hends : ∀ c ∈ text, c ∉ d.lineEnds) (hrun : s.run d text = some s') :
    s.Reaches d text s' := by
  have hany : text.any d.leavesLineEnd = false :=
    List.any_eq_false.mpr fun c hc => by simp [Dialect.leavesLineEnd, hends c hc]
  exact ⟨fun _ => hrun, fun h => by simp [hany] at h⟩

/-- **Texts are scanned** one after the other. -/
theorem Reaches.append {s'' : Scan} (h : s.Reaches d text s') (h' : s'.Reaches d more s'') :
    s.Reaches d (text ++ more) s'' := by
  constructor
  · intro hany
    obtain ⟨htext, hmore⟩ :
        text.any d.leavesLineEnd = false ∧ more.any d.leavesLineEnd = false := by
      rwa [List.any_append, Bool.or_eq_false_iff] at hany
    rw [run_append, h.run htext]
    exact h'.run hmore
  · intro hany
    cases htext : text.any d.leavesLineEnd with
    | true => exact (h.breaksOff htext).append more
    | false =>
      have hmore : more.any d.leavesLineEnd = true := by
        rwa [List.any_append, htext, Bool.false_or] at hany
      exact (h'.breaksOff hmore).after (h.run htext)

end Scan

variable {d : Dialect}

/-! ### Code without literals from outside -/

/-- **Code that is given** is scanned as it stands, even right behind a name: how it ends, and the
brackets that are open then. It is on one line. -/
def codeAfter (d : Dialect) (a : List Bracket) (text : List Char) : Option (Bool × List Bracket) :=
  if text.any d.lineEnds.contains then none
  else
    match Scan.run d ⟨.code true, a⟩ text with
    | some ⟨.code tight, b⟩ => some (tight, b)
    | _ => none

theorem run_codeAfter {a b : List Bracket} {text : List Char} {k : Bool}
    (h : codeAfter d a text = some (k, b)) (tight : Bool) :
    (∀ c ∈ text, c ∉ d.lineEnds) ∧ ∃ k', (k' = true → k = true) ∧ ∀ outer,
      Scan.run d ⟨.code tight, a ++ outer⟩ text = some ⟨.code k', b ++ outer⟩ := by
  rw [codeAfter] at h
  split at h
  · cases h
  · next hends =>
    split at h
    · next k₁ b₁ hrun =>
      obtain ⟨rfl, rfl⟩ : k₁ = k ∧ b₁ = b := by simpa using h
      refine ⟨by simpa using hends, ?_⟩
      cases text with
      | nil =>
        obtain ⟨rfl, rfl⟩ : true = k₁ ∧ a = b₁ := by simpa [Scan.run] using hrun
        exact ⟨tight, fun _ => rfl, fun outer => rfl⟩
      | cons c rest =>
        -- what may come behind a name may come anywhere
        have hloose : Scan.run d ⟨.code tight, a⟩ (c :: rest) = some ⟨.code k₁, b₁⟩ := by
          obtain ⟨act, hact, hrest⟩ := Option.bind_eq_some_iff.mp hrun
          have hplain : d.readPlain c = some act := by
            simpa [Dialect.readChar, Dialect.readCode] using hact
          rw [Scan.run, Dialect.readChar, Dialect.readCode, hplain]
          exact hrest
        exact ⟨k₁, id, fun outer => Scan.run_frame hloose outer⟩
    · cases h

/-! ### Literals -/

theorem not_mem_lineEnds_of_isNameChar {c : Char} (h : isNameChar c = true) : c ∉ d.lineEnds := by
  have hall : d.lineEnds.all (!isNameChar ·) = true := by cases d <;> rfl
  intro hc
  simpa [h] using List.all_eq_true.mp hall c hc

/-- A digit in an escape is an ordinary character, also right behind the backslash. -/
theorem readChar_hexDigit (d : Dialect) (n : ℕ) :
    d.readChar .literal (hexDigit n) = some (.go .literal) ∧
      d.readChar .escape (hexDigit n) = some (.go .literal) ∧ hexDigit n ∉ d.lineEnds := by
  by_cases hn : n < 16
  · revert n
    cases d <;> decide
  · rw [hexDigit_of_le (Nat.le_of_not_lt hn)]
    cases d <;> decide

section

variable {a : List Bracket} {c : Char} {rest : List Char}

theorem run_fixedDigits (base count n : ℕ) :
    Scan.run d ⟨.literal, a⟩ (fixedDigits base count n) = some ⟨.literal, a⟩ := by
  induction count generalizing n with
  | zero => rfl
  | succ count ih =>
    rw [fixedDigits, Scan.run_append, ih, Option.bind_some,
      Scan.run_cons_of_go (readChar_hexDigit d _).1]
    rfl

theorem readChar_backslash (d : Dialect) : d.readChar .literal '\\' = some (.go .escape) := by
  cases d <;> rfl

theorem readChar_escape_of_shared {x : Char} (h : (x, c) ∈ d.sharedEscapes) :
    d.readChar .escape x = some (.go .literal) ∧ x ∉ d.lineEnds := by
  simp only [Dialect.sharedEscapes, List.mem_cons, Prod.mk.injEq, List.not_mem_nil, or_false] at h
  rcases h with ⟨rfl, -⟩ | ⟨rfl, -⟩ | ⟨rfl, -⟩ | ⟨rfl, -⟩ | ⟨rfl, -⟩ <;> cases d <;> decide

/-- **What is written for a character** is scanned as part of the literal, unless it is a line end
that is left as it is. -/
theorem run_escape (h : d.leavesLineEnd c = false) :
    Scan.run d ⟨.literal, a⟩ (d.escape c) = some ⟨.literal, a⟩ := by
  rcases Dialect.escape_cases d c with ⟨x, hx, hescape⟩ | ⟨hback, hquote, hescape⟩ |
    ⟨rfl, -, hescape⟩ | ⟨hd, -, hescape⟩
  · rw [hescape, Scan.run_cons_of_go (readChar_backslash d),
      Scan.run_cons_of_go (readChar_escape_of_shared hx).1]
    rfl
  · have hends : c ∉ d.lineEnds := fun hc => by simp [Dialect.leavesLineEnd, hescape, hc] at h
    have hread : d.readChar .literal c = some (.go .literal) := by
      simp [Dialect.readChar, hback, hquote, hends]
    rw [hescape, Scan.run_cons_of_go hread]
    rfl
  · have hdigits : fixedDigits 8 3 c.toNat =
        [hexDigit (c.toNat / 8 / 8 % 8), hexDigit (c.toNat / 8 % 8), hexDigit (c.toNat % 8)] := by
      simp [fixedDigits]
    rw [hescape, Scan.run_cons_of_go (readChar_backslash _), hdigits,
      Scan.run_cons_of_go (readChar_hexDigit _ _).2.1,
      Scan.run_cons_of_go (readChar_hexDigit _ _).1,
      Scan.run_cons_of_go (readChar_hexDigit _ _).1]
    rfl
  · have hletter : d.readChar .escape 'u' = some (.go .literal) := by
      cases d <;> first | rfl | exact absurd rfl hd
    rw [hescape, Scan.run_cons_of_go (readChar_backslash d), Scan.run_cons_of_go hletter]
    exact run_fixedDigits _ _ _

/-- What is written for a line end that is left as it is, is that line end. -/
theorem escape_of_leavesLineEnd (h : d.leavesLineEnd c = true) :
    c ∈ d.lineEnds ∧ d.escape c = [c] := by
  simpa [Dialect.leavesLineEnd] using h

/-- The only line ends in what is written for a character are those that are left as they are. -/
theorem leavesLineEnd_of_mem_escape {x : Char} (hx : x ∈ d.escape c) (hends : x ∈ d.lineEnds) :
    x = c ∧ d.leavesLineEnd c = true := by
  have hback := (Dialect.ne_of_mem_lineEnds hends).2
  have hdigits (base count n : ℕ) : x ∉ fixedDigits base count n := by
    induction count generalizing n with
    | zero => simp [fixedDigits]
    | succ count ih =>
      have hne : x ≠ hexDigit (n % base) := by
        rintro rfl
        exact (readChar_hexDigit d _).2.2 hends
      simp [fixedDigits, ih, hne]
  rcases Dialect.escape_cases d c with ⟨y, hy, hescape⟩ | ⟨-, -, hescape⟩ | ⟨rfl, -, hescape⟩ |
    ⟨hd, -, hescape⟩
  · rw [hescape, List.mem_cons, List.mem_singleton] at hx
    rcases hx with rfl | rfl
    · exact absurd rfl hback
    · exact absurd hends (readChar_escape_of_shared hy).2
  · rw [hescape, List.mem_singleton] at hx
    subst hx
    exact ⟨rfl, by simp [Dialect.leavesLineEnd, hescape, hends]⟩
  · rw [hescape, List.mem_cons] at hx
    exact (hx.elim hback (hdigits _ _ _)).elim
  · rw [hescape, List.mem_cons, List.mem_cons] at hx
    rcases hx with hx | rfl | hx
    · exact absurd hx hback
    · exact absurd hends (not_mem_lineEnds_of_isNameChar (by decide))
    · exact absurd hx (hdigits _ _ _)

end

/-! ### Code -/

/-- **A text is scanned as code**, in a place that is not right behind a name or a literal: of the
open brackets it takes those of `a` to those of `b`, whatever is open outside. Only if `tight` does
it end right behind a name or a literal. -/
structure Scans (d : Dialect) (a : List Bracket) (text : String) (tight : Bool) (b : List Bracket) :
    Prop where
  /-- It is scanned, unless a line end is left in a literal. -/
  reaches : ∃ k, (k = true → tight = true) ∧ ∀ outer,
    Scan.Reaches d ⟨.code false, a ++ outer⟩ text.toList ⟨.code k, b ++ outer⟩
  /-- Apart from such line ends, it is on one line. -/
  ends : ∀ c ∈ text.toList, c ∈ d.lineEnds → d.leavesLineEnd c = true

/-- **A piece of code** closes the brackets that it opens. -/
def IsCode (d : Dialect) (text : String) : Prop :=
  Scans d [] text true []

section

variable {a b e : List Bracket} {t u : String} {text : List Char} {k k' : Bool}

theorem Scans.isCode (h : Scans d [] t k []) : IsCode d t :=
  ⟨h.reaches.imp fun _ hk => ⟨fun _ => rfl, hk.2⟩, h.ends⟩

theorem Scans.frame (h : Scans d a t k b) (outer : List Bracket) :
    Scans d (a ++ outer) t k (b ++ outer) := by
  obtain ⟨k', hk', hreaches⟩ := h.reaches
  refine ⟨⟨k', hk', fun more => ?_⟩, h.ends⟩
  simpa only [List.append_assoc] using hreaches (outer ++ more)

theorem Scans.append (h : Scans d a t false b) (h' : Scans d b u k e) : Scans d a (t ++ u) k e := by
  obtain ⟨k₁, hk₁, hfirst⟩ := h.reaches
  obtain ⟨k₂, hk₂, hnext⟩ := h'.reaches
  obtain rfl : k₁ = false := by simpa using hk₁
  refine ⟨⟨k₂, hk₂, fun outer => ?_⟩, fun c hc => ?_⟩
  · rw [String.toList_append]
    exact (hfirst outer).append (hnext outer)
  · rw [String.toList_append, List.mem_append] at hc
    exact hc.elim (h.ends c) (h'.ends c)

/-- A piece of code comes next. -/
theorem Scans.then (h : Scans d a t false b) (h' : IsCode d u) : Scans d a (t ++ u) true b :=
  h.append (Scans.frame h' b)

/-- **Code that is given** comes next. -/
theorem Scans.code (h : Scans d a t k b) (hu : u = String.ofList text)
    (hrun : codeAfter d b text = some (k', e)) : Scans d a (t ++ u) k' e := by
  subst hu
  obtain ⟨k₁, -, hfirst⟩ := h.reaches
  obtain ⟨hends, k₂, hk₂, hnext⟩ := run_codeAfter hrun k₁
  refine ⟨⟨k₂, hk₂, fun outer => ?_⟩, fun c hc hline => ?_⟩
  · rw [String.toList_append, String.toList_ofList]
    exact (hfirst outer).append (Scan.reaches_of_run hends (hnext outer))
  · rw [String.toList_append, String.toList_ofList, List.mem_append] at hc
    exact hc.elim (fun hc => h.ends c hc hline) fun hc => absurd hline (hends c hc)

theorem scans_empty : Scans d a "" false a :=
  ⟨⟨false, id, fun _ => Scan.reaches_of_run (fun _ hc => nomatch hc) rfl⟩, fun _ hc => nomatch hc⟩

theorem scans_code (hu : u = String.ofList text) (hrun : codeAfter d a text = some (k, b)) :
    Scans d a u k b := by
  have h := scans_empty.code hu hrun
  rwa [String.empty_append] at h

section

variable {first last : String} {head tail : List Char}

/-- Code that is given, around a piece of code. -/
theorem IsCode.between (h : IsCode d t) (hfirst : first = String.ofList head)
    (hhead : codeAfter d [] head = some (false, b)) (hlast : last = String.ofList tail)
    (htail : codeAfter d b tail = some (k, [])) : IsCode d (first ++ t ++ last) :=
  (((scans_code hfirst hhead).then h).code hlast htail).isCode

/-- Code that is given, between two pieces of code and behind them. -/
theorem IsCode.call (h : IsCode d t) (hfirst : first = String.ofList head)
    (hhead : codeAfter d [] head = some (false, b)) (h' : IsCode d u)
    (hlast : last = String.ofList tail) (htail : codeAfter d b tail = some (k, [])) :
    IsCode d (t ++ first ++ u ++ last) :=
  (((Scans.code h hfirst hhead).then h').code hlast htail).isCode

/-- Code that is given, in front of a piece of code. -/
theorem IsCode.behind (h : IsCode d t) (hfirst : first = String.ofList head)
    (hhead : codeAfter d [] head = some (false, [])) : IsCode d (first ++ t) :=
  ((scans_code hfirst hhead).then h).isCode

/-- Code that is given, behind a piece of code. -/
theorem IsCode.before (h : IsCode d t) (hlast : last = String.ofList tail)
    (htail : codeAfter d [] tail = some (k, [])) : IsCode d (t ++ last) :=
  (Scans.code h hlast htail).isCode

end

theorem isCode_given (ht : t = String.ofList text) (hrun : codeAfter d [] text = some (k, [])) :
    IsCode d t :=
  (scans_code ht hrun).isCode

theorem isCode_ite {p : Prop} [Decidable p] (ht : IsCode d t) (hu : IsCode d u) :
    IsCode d (if p then t else u) := by
  split
  · exact ht
  · exact hu

/-- **A name** is a piece of code. -/
theorem isCode_name (h : ∀ c ∈ t.toList, isNameChar c = true) : IsCode d t := by
  have hany : t.toList.any d.lineEnds.contains = false :=
    List.any_eq_false.mpr fun c hc => by simpa using not_mem_lineEnds_of_isNameChar (h c hc)
  have hname (text : List Char) (h : ∀ c ∈ text, isNameChar c = true) :
      Scan.run d ⟨.code true, []⟩ text = some ⟨.code true, []⟩ := by
    induction text with
    | nil => rfl
    | cons c rest ih =>
      have hread : d.readChar (.code true) c = some (.go (.code true)) := by
        simp [Dialect.readChar, Dialect.readCode, Dialect.readPlain, h c List.mem_cons_self]
      rw [Scan.run_cons_of_go hread]
      exact ih fun x hx => h x (List.mem_cons_of_mem _ hx)
  have hrun : codeAfter d [] t.toList = some (true, []) := by
    rw [codeAfter, hany, hname _ h]
    rfl
  exact (scans_code String.ofList_toList.symm hrun).isCode

theorem quoteMark_not_mem_lineEnds (d : Dialect) : d.quoteMark ∉ d.lineEnds := by
  cases d <;> decide

/-- What is written for a character is scanned, or the scan breaks off there. -/
theorem reaches_escape (d : Dialect) (a : List Bracket) (c : Char) :
    Scan.Reaches d ⟨.literal, a⟩ (d.escape c) ⟨.literal, a⟩ := by
  constructor
  · intro hany
    refine run_escape (Bool.eq_false_iff.mpr fun hleaves => ?_)
    simp [(escape_of_leavesLineEnd hleaves).2, hleaves] at hany
  · intro hany
    obtain ⟨x, hx, hleaves⟩ := List.any_eq_true.mp hany
    obtain ⟨rfl, hleaves⟩ := leavesLineEnd_of_mem_escape hx (escape_of_leavesLineEnd hleaves).1
    obtain ⟨hends, hescape⟩ := escape_of_leavesLineEnd hleaves
    exact ⟨[], x, [], a, hescape, rfl, hends⟩

/-- **The literal of a text** is scanned, or the scan breaks off in it. -/
theorem reaches_quote (s : List Char) (a : List Bracket) :
    Scan.Reaches d ⟨.code false, a⟩ (quote d s) ⟨.code true, a⟩ := by
  have hmark : ∀ c ∈ [d.quoteMark], c ∉ d.lineEnds :=
    List.forall_mem_singleton.mpr (quoteMark_not_mem_lineEnds d)
  have hopens : Scan.Reaches d ⟨.code false, a⟩ [d.quoteMark] ⟨.literal, a⟩ :=
    Scan.reaches_of_run hmark (by cases d <;> rfl)
  have hcloses : Scan.Reaches d ⟨.literal, a⟩ [d.quoteMark] ⟨.code true, a⟩ :=
    Scan.reaches_of_run hmark (by cases d <;> rfl)
  have hinner : Scan.Reaches d ⟨.literal, a⟩ (s.flatMap d.escape) ⟨.literal, a⟩ := by
    induction s with
    | nil => exact Scan.reaches_of_run (fun _ hc => nomatch hc) rfl
    | cons c rest ih => exact (reaches_escape d a c).append ih
  exact (hopens.append hinner).append hcloses

/-- **A literal** is a piece of code. -/
theorem isCode_quoted (s : String) : IsCode d (quoted d s) := by
  refine ⟨⟨true, id, fun outer => ?_⟩, fun c hc hline => ?_⟩
  · rw [toList_quoted]
    exact reaches_quote _ _
  · rw [toList_quoted, quote, List.mem_append, List.mem_cons, List.mem_flatMap,
      List.mem_singleton] at hc
    rcases hc with (rfl | ⟨x, -, hx⟩) | rfl
    · exact absurd hline (quoteMark_not_mem_lineEnds d)
    · obtain ⟨rfl, hends⟩ := leavesLineEnd_of_mem_escape hx hline
      exact hends
    · exact absurd hline (quoteMark_not_mem_lineEnds d)

/-- **Pieces of code** with a mark between each two are a piece of code. -/
theorem isCode_intercalate {sep : String} {items : List String} (hsep : sep = String.ofList text)
    (hrun : codeAfter d [] text = some (false, [])) (h : ∀ item ∈ items, IsCode d item) :
    IsCode d (sep.intercalate items) := by
  induction items with
  | nil => exact scans_empty.isCode
  | cons first rest ih =>
    cases rest with
    | nil => simpa using h first (by simp)
    | cons second rest =>
      rw [String.intercalate_cons_cons]
      exact ((h first List.mem_cons_self).code hsep hrun).then
        (ih fun item hitem => h item (List.mem_cons_of_mem _ hitem))

/-- Pieces of code that may be left out are pieces of code. -/
theorem forall_isCode_ite {p : Prop} [Decidable p] {items : List String}
    (h : ∀ item ∈ items, IsCode d item) : ∀ item ∈ (if p then items else []), IsCode d item := by
  split
  · exact h
  · exact fun _ hitem => nomatch hitem

theorem forall_isCode_map {f : String → String} (name : Option String)
    (h : ∀ n, IsCode d (f n)) : ∀ item ∈ (name.map f).toList, IsCode d item := by
  cases name with
  | none => exact fun _ hitem => nomatch hitem
  | some n => exact List.forall_mem_singleton.mpr (h n)

theorem isCode_commaList {items : List String} (h : ∀ item ∈ items, IsCode d item) :
    IsCode d (commaList items) :=
  isCode_intercalate rfl (by cases d <;> rfl) h

/-- **The way to an element** is a piece of code: the page, the frames on the way, and the element.
-/
theorem isCode_path {page element : String} {frame : String → String} {frames : List String}
    (hpage : IsCode d page) (hframe : ∀ css, IsCode d (frame css)) (helement : IsCode d element) :
    IsCode d (".".intercalate (page :: frames.map frame ++ [element])) :=
  isCode_intercalate rfl (by cases d <;> rfl) <| List.forall_mem_append.mpr
    ⟨List.forall_mem_cons.mpr ⟨hpage, List.forall_mem_map.mpr fun css _ => hframe css⟩,
      List.forall_mem_singleton.mpr helement⟩

/-- **A number** without a sign is a piece of code. -/
theorem isCode_toString {n : ℤ} (hn : 0 ≤ n) : IsCode d (toString n) := by
  rw [Int.toString_eq_repr, Int.repr_eq_if, if_pos hn]
  refine isCode_name fun c hc => ?_
  rw [Nat.toList_repr] at hc
  exact isNameChar_of_isDigit (Nat.isDigit_of_mem_toDigits (by decide) (by decide) hc)

end

/-! ### Lines -/

/-- **A line that is a remark** does nothing to brackets. -/
def IsRemark (d : Dialect) (line : String) : Prop :=
  (∀ c ∈ line.toList, c ∉ d.lineEnds) ∧
    ∀ a, Scan.run d ⟨.code false, a⟩ line.toList = some ⟨.comment, a⟩

/-- **Lines that pass** one after the other take the open brackets from `a` to `b`. They are lines
of code, and remarks if there may be any. -/
inductive Passes (d : Dialect) (remarks : Bool) : List Bracket → List String → List Bracket → Prop
  | nil (a : List Bracket) : Passes d remarks a [] a
  | code {a b e : List Bracket} {line : String} {rest : List String} {tight : Bool}
      (hline : Scans d a line tight b) (hrest : Passes d remarks b rest e) :
      Passes d remarks a (line :: rest) e
  | remark {a e : List Bracket} {line : String} {rest : List String} (hremarks : remarks = true)
      (hline : IsRemark d line) (hrest : Passes d remarks a rest e) :
      Passes d remarks a (line :: rest) e

section

variable {a b e : List Bracket} {lines more : List String} {line margin : String} {text : List Char}
  {k remarks : Bool}

theorem passes_line (h : Scans d a line k b) : Passes d remarks a [line] b :=
  .code h (.nil b)

theorem passes_map {α : Type} {f : α → String} {items : List α} (h : ∀ x ∈ items, IsCode d (f x)) :
    Passes d remarks [] (items.map f) [] := by
  induction items with
  | nil => exact .nil []
  | cons x rest ih =>
    exact .code (h x List.mem_cons_self) (ih fun y hy => h y (List.mem_cons_of_mem _ hy))

theorem Passes.mono (h : Passes d false a lines b) : Passes d remarks a lines b := by
  induction h with
  | nil a => exact .nil a
  | code hline _ ih => exact .code hline ih
  | remark hremarks => cases hremarks

theorem Passes.frame (h : Passes d remarks a lines b) (outer : List Bracket) :
    Passes d remarks (a ++ outer) lines (b ++ outer) := by
  induction h with
  | nil a => exact .nil _
  | code hline _ ih => exact .code (hline.frame outer) ih
  | remark hremarks hline _ ih => exact .remark hremarks hline ih

theorem Passes.append (h : Passes d remarks a lines b) (h' : Passes d remarks b more e) :
    Passes d remarks a (lines ++ more) e := by
  induction h with
  | nil a => exact h'
  | code hline _ ih => exact .code hline (ih h')
  | remark hremarks hline _ ih => exact .remark hremarks hline (ih h')

/-- A text in front of the first line. -/
theorem Passes.startWith {first : String} (h : Passes d false a lines b)
    (hfirst : first = String.ofList text) (hrun : codeAfter d [] text = some (false, [])) :
    Passes d false a (startWith first lines) b := by
  cases h with
  | nil => exact .nil _
  | code hline hrest => exact .code (((scans_code hfirst hrun).frame _).append hline) hrest
  | remark hremarks => cases hremarks

/-- A text behind the last line. -/
theorem Passes.endWith {last : String} (h : Passes d false a lines b) (hne : lines ≠ [])
    (hlast : last = String.ofList text) (hrun : codeAfter d b text = some (k, e)) :
    Passes d false a (endWith last lines) e := by
  induction h with
  | nil => exact absurd rfl hne
  | code hline hrest ih =>
    cases hrest with
    | nil => exact .code (hline.code hlast hrun) (.nil _)
    | code hnext hrest => exact .code hline (ih (List.cons_ne_nil _ _) hrun)
    | remark hremarks => cases hremarks
  | remark hremarks => cases hremarks

theorem Scans.indented (h : Scans d a line k b) (hmargin : margin = String.ofList text)
    (hrun : codeAfter d [] text = some (false, [])) : Scans d a (margin ++ line) k b :=
  ((scans_code hmargin hrun).frame a).append h

theorem IsRemark.indented (h : IsRemark d line) (hmargin : margin = String.ofList text)
    (hrun : codeAfter d [] text = some (false, [])) : IsRemark d (margin ++ line) := by
  obtain ⟨hends, k, hk, hmarginRun⟩ := run_codeAfter hrun false
  obtain rfl : k = false := by simpa using hk
  subst hmargin
  refine ⟨fun c hc => ?_, fun a => ?_⟩
  · rw [String.toList_append, String.toList_ofList, List.mem_append] at hc
    exact hc.elim (hends c) (h.1 c)
  · rw [String.toList_append, String.toList_ofList, Scan.run_append]
    exact (congrArg (Option.bind · _) (hmarginRun a)).trans (h.2 a)

/-- **Indented lines** pass as they do without the indent. -/
theorem Passes.indent (h : Passes d remarks a lines b) (hmargin : margin = String.ofList text)
    (hrun : codeAfter d [] text = some (false, [])) :
    Passes d remarks a (indent margin lines) b := by
  induction h with
  | nil a => exact .nil _
  | @code _ _ _ line _ _ hline _ ih =>
    rw [Program.indent, List.map_cons]
    by_cases hempty : line.isEmpty = true
    · rw [if_pos hempty]
      exact .code hline ih
    · rw [if_neg hempty]
      exact .code (hline.indented hmargin hrun) ih
  | @remark _ _ line _ hremarks hline _ ih =>
    rw [Program.indent, List.map_cons]
    by_cases hempty : line.isEmpty = true
    · rw [if_pos hempty]
      exact .remark hremarks hline ih
    · rw [if_neg hempty]
      exact .remark hremarks (hline.indented hmargin hrun) ih

/-- A remark that is given. -/
theorem isRemark_given (hline : line = String.ofList text)
    (hends : text.any d.lineEnds.contains = false)
    (hrun : Scan.run d ⟨.code false, []⟩ text = some ⟨.comment, []⟩) : IsRemark d line := by
  rw [hline, IsRemark, String.toList_ofList]
  exact ⟨by simpa using hends, fun a => Scan.run_frame hrun a⟩

/-- A text of names and plain marks. -/
def isPlainText (s : String) : Bool :=
  s.toList.all fun c => isNameChar c || plainMarks.contains c

theorem isPlainText_given {s : String} (hs : s = String.ofList text)
    (hplain : (text.all fun c => isNameChar c || plainMarks.contains c) = true) :
    isPlainText s = true := by
  rw [hs, isPlainText, String.toList_ofList]
  exact hplain

theorem isPlainText_append {s t : String} (hs : isPlainText s = true) (ht : isPlainText t = true) :
    isPlainText (s ++ t) = true := by
  rw [isPlainText, String.toList_append, List.all_append, Bool.and_eq_true]
  exact ⟨hs, ht⟩

/-- A plain text ends no line, and begins no escape. -/
theorem ne_of_isPlainText {s : String} (h : isPlainText s = true) {c : Char} (hc : c ∈ s.toList) :
    c ∉ d.lineEnds ∧ c ≠ '\\' := by
  have hmarks : plainMarks.all (fun x => !d.lineEnds.contains x && x != '\\') = true := by
    cases d <;> rfl
  have hcases : isNameChar c = true ∨ c ∈ plainMarks := by
    simpa using List.all_eq_true.mp h c hc
  refine hcases.elim (fun hname => ⟨not_mem_lineEnds_of_isNameChar hname, ?_⟩)
    fun hmark => by simpa using List.all_eq_true.mp hmarks c hmark
  rintro rfl
  exact absurd hname (by decide)

/-- **A remark**: a mark that begins one, and a plain text. -/
theorem IsRemark.append (h : IsRemark d line) {remark : String}
    (hremark : isPlainText remark = true) :
    IsRemark d (line ++ remark) := by
  have hplain (c : Char) (hc : c ∈ remark.toList) :
      c ∉ d.lineEnds ∧ d.readChar .comment c = some (.go .comment) := by
    obtain ⟨hends, hback⟩ := ne_of_isPlainText hremark hc
    exact ⟨hends, by simp [Dialect.readChar, hends, hback]⟩
  refine ⟨fun c hc => ?_, fun a => ?_⟩
  · rw [String.toList_append, List.mem_append] at hc
    exact hc.elim (h.1 c) fun hc => (hplain c hc).1
  · rw [String.toList_append, Scan.run_append, h.2, Option.bind_some]
    generalize remark.toList = rest at hplain
    induction rest with
    | nil => rfl
    | cons c rest ih =>
      rw [Scan.run_cons_of_go (hplain c List.mem_cons_self).2]
      exact ih fun x hx => hplain x (List.mem_cons_of_mem _ hx)

/-- The text of lines, each with a line feed behind it. -/
def textOf (lines : List String) : List Char :=
  lines.flatMap fun line => line.toList ++ ['\n']

theorem textOf_cons (line : String) (rest : List String) :
    textOf (line :: rest) = line.toList ++ '\n' :: textOf rest := by
  simp [textOf]

theorem toList_intercalate (h : lines ≠ []) :
    ("\n".intercalate lines ++ "\n").toList = textOf lines := by
  induction lines with
  | nil => exact absurd rfl h
  | cons first rest ih =>
    cases rest with
    | nil => simp [textOf]
    | cons second rest =>
      rw [textOf_cons, ← ih (List.cons_ne_nil _ _), String.intercalate_cons_cons]
      simp [String.toList_append]

/-- Behind a line, code begins anew. -/
theorem reaches_lineFeed {m : Mode} (hm : (∃ k, m = .code k) ∨ m = .comment) (a : List Bracket) :
    Scan.Reaches d ⟨m, a⟩ ['\n'] ⟨.code false, a⟩ := by
  have hany : ['\n'].any d.leavesLineEnd = false := by cases d <;> decide
  refine ⟨fun _ => ?_, fun h => by simp [hany] at h⟩
  rcases hm with ⟨k, rfl⟩ | rfl <;> cases d <;> rfl

/-- **Lines are scanned** one by one. -/
theorem Passes.reaches (h : Passes d remarks a lines b) (outer : List Bracket) :
    Scan.Reaches d ⟨.code false, a ++ outer⟩ (textOf lines) ⟨.code false, b ++ outer⟩ := by
  induction h with
  | nil a => exact Scan.reaches_of_run (fun _ hc => nomatch hc) rfl
  | code hline _ ih =>
    obtain ⟨k, -, hreaches⟩ := hline.reaches
    exact ((hreaches outer).append (reaches_lineFeed (.inl ⟨k, rfl⟩) _)).append ih
  | remark _ hline _ ih =>
    exact ((Scan.reaches_of_run hline.1 (hline.2 _)).append
      (reaches_lineFeed (.inr rfl) _)).append ih

/-- **Each line is one**, apart from line ends that are left in literals. -/
theorem Passes.ends (h : Passes d remarks a lines b) :
    ∀ line ∈ lines, ∀ c ∈ line.toList, c ∈ d.lineEnds → d.leavesLineEnd c = true := by
  induction h with
  | nil a => exact fun _ hline => nomatch hline
  | code hline _ ih => exact List.forall_mem_cons.mpr ⟨hline.ends, ih⟩
  | remark _ hline _ ih =>
    exact List.forall_mem_cons.mpr ⟨fun c hc hends => absurd hends (hline.1 c hc), ih⟩

end

end Scribe.Program
