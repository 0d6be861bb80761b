import Scribe.Program.Language
import Scribe.Proofs.Program.Scanning

/-!
# Programs with identifiers for names

Pages, popups and downloads are written into programs by name, and so are roles, buttons, modifier
keys and the kinds that nothing is known about. If all these are ASCII identifiers
(`Scribe.Action.HasNames`), so are the names in each statement of a plan
(`Scribe.Program.hasNames_plan`), also in another case. Whatever else an action holds may be any
text.

A language has brackets in order (`Scribe.Program.Language.HasBrackets`) if its header and its
footer close what they open, and the lines of each statement do. Its programs are then scanned to
the end, up to line ends that are left in literals
(`Scribe.Program.Language.HasBrackets.reaches_render`).
-/

namespace Scribe

open Text Program

/-! ### Identifiers -/

/-- **An ASCII identifier.** -/
def isIdentifier (s : String) : Bool :=
  match s.toList with
  | [] => false
  | c :: rest => (c.isAlpha || c == '_') && rest.all isNameChar

/-- A text of characters of names. -/
def IsNameText (text : List Char) : Prop :=
  ∀ c ∈ text, isNameChar c = true

theorem isNameText_of_isIdentifier {s : String} (h : isIdentifier s = true) :
    IsNameText s.toList := by
  rw [isIdentifier] at h
  split at h
  · cases h
  · next c rest hs =>
    rw [hs]
    simp only [Bool.and_eq_true, Bool.or_eq_true, beq_iff_eq, List.all_eq_true] at h
    refine List.forall_mem_cons.mpr ⟨?_, h.2⟩
    rcases h.1 with hc | rfl
    · simp [isNameChar, Char.isAlphanum, hc]
    · decide

theorem IsNameText.append {a b : List Char} (ha : IsNameText a) (hb : IsNameText b) :
    IsNameText (a ++ b) :=
  fun c hc => (List.mem_append.mp hc).elim (ha c) (hb c)

theorem IsNameText.isCode {d : Dialect} {s : String} (h : IsNameText s.toList) : IsCode d s :=
  isCode_name h

/-- An identifier is a piece of code. -/
theorem isCode_identifier {d : Dialect} {s : String} (h : isIdentifier s = true) : IsCode d s :=
  (isNameText_of_isIdentifier h).isCode

section

variable {c : Char} {text : List Char}

/-- Names are ASCII, and in another case they are names again. -/
theorem isNameChar_case (h : isNameChar c = true) :
    c.toNat < 0x80 ∧ isNameChar c.toUpper = true ∧ isNameChar c.toLower = true ∧
      titleExceptions.lookup c.toNat = none := by
  have hascii : c.toNat < 0x80 := by
    rw [isNameChar, Char.isAlphanum, Char.isAlpha, Char.isUpper, Char.isLower, Char.isDigit] at h
    simp only [Bool.or_eq_true, Bool.and_eq_true, decide_eq_true_eq, beq_iff_eq, ge_iff_le,
      UInt32.le_iff_toNat_le] at h
    rcases h with ((⟨-, h⟩ | ⟨-, h⟩) | ⟨-, h⟩) | rfl
    · exact Nat.lt_of_le_of_lt h (by decide)
    · exact Nat.lt_of_le_of_lt h (by decide)
    · exact Nat.lt_of_le_of_lt h (by decide)
    · decide
  have hcase : ∀ n < 0x80, isNameChar (Char.ofNat n) = true →
      isNameChar (Char.ofNat n).toUpper = true ∧ isNameChar (Char.ofNat n).toLower = true := by
    decide +kernel
  have hexceptions : titleExceptions.all (0x80 ≤ ·.1) = true := by decide +kernel
  have hc := hcase c.toNat hascii
  rw [Char.ofNat_toNat] at hc
  refine ⟨hascii, (hc h).1, (hc h).2, List.lookup_eq_none_iff.mpr fun entry hentry => ?_⟩
  have hentry : 0x80 ≤ entry.1 := by simpa using List.all_eq_true.mp hexceptions entry hentry
  simpa using (Nat.lt_of_lt_of_le hascii hentry).ne

theorem IsNameText.upper (h : IsNameText text) : IsNameText (upper text) := by
  intro x hx
  obtain ⟨c, hc, hx⟩ := List.mem_flatMap.mp hx
  obtain ⟨hascii, hupper, -⟩ := isNameChar_case (h c hc)
  rw [upperChar, if_pos hascii, List.mem_singleton] at hx
  exact hx ▸ hupper

theorem IsNameText.lowerFrom (h : IsNameText text) (before : List Char) :
    IsNameText (lowerFrom before text) := by
  induction text generalizing before with
  | nil => exact h
  | cons c rest ih =>
    obtain ⟨hascii, -, hlower, -⟩ := isNameChar_case (h c List.mem_cons_self)
    have hsigma : (c == 'Σ') = false := by
      rw [beq_eq_false_iff_ne]
      rintro rfl
      exact absurd hascii (by decide)
    rw [Text.lowerFrom, hsigma, lowerChar, if_pos hascii]
    exact IsNameText.append (by simpa [IsNameText] using hlower)
      (ih (fun x hx => h x (List.mem_cons_of_mem _ hx)) _)

theorem IsNameText.capitalize (h : IsNameText text) : IsNameText (capitalize text) := by
  cases text with
  | nil => exact h
  | cons c rest =>
    obtain ⟨hascii, hupper, -, htitle⟩ := isNameChar_case (h c List.mem_cons_self)
    rw [Text.capitalize, titleChar, htitle, upperChar, if_pos hascii]
    exact IsNameText.append (by simpa [IsNameText] using hupper)
      (IsNameText.lowerFrom (fun x hx => h x (List.mem_cons_of_mem _ hx)) _)

end

/-! ### Names in actions -/

/-- The names in a selector are identifiers: the role that it looks for. -/
def Selector.HasNames : Selector → Prop
  | .role kind _ _ => isIdentifier kind = true
  | .testId _ | .label _ | .placeholder _ | .text _ | .css _ _ => True

/-- **The names in an action** are identifiers: its page, the pages and downloads of its signals,
its role, its button and modifiers, and its kind, if nothing is known about it. -/
structure Action.HasNames (a : Action) : Prop where
  page : isIdentifier a.page = true
  popups : ∀ s ∈ a.signals, ∀ v ∈ s.popup, isIdentifier v = true
  downloads : ∀ s ∈ a.signals, ∀ v ∈ s.download, isIdentifier v = true
  selector : ∀ s ∈ a.selector, s.HasNames
  button : isIdentifier a.button = true
  modifiers : ∀ m ∈ a.modifiers, isIdentifier m = true
  kind : ∀ name, a.kind = .other name → isIdentifier name = true

namespace Program

/-- The names in what leads to an element are identifiers. -/
structure Target.HasNames (t : Target) : Prop where
  page : isIdentifier t.page = true
  selector : t.selector.HasNames

/-- The names in an operation are identifiers. -/
def Operation.HasNames : Operation → Prop
  | .close page | .navigate page _ => isIdentifier page = true
  | .click t button _ modifiers =>
    t.HasNames ∧ isIdentifier button = true ∧ ∀ m ∈ modifiers, isIdentifier m = true
  | .fill t _ | .check t _ | .press t _ | .setFiles t _ | .select t _ => t.HasNames

/-- The variable that receives what is waited for is named by an identifier. -/
def Wait.HasNames : Wait → Prop
  | .popup v | .download v => isIdentifier v = true

/-- **The names in a statement** are identifiers, and a comment has words and plain marks only. -/
def Statement.HasNames : Statement → Prop
  | .comment text => isPlainText text = true
  | .openPage page | .answerDialog page _ _ => isIdentifier page = true
  | .perform op => op.HasNames
  | .performWaiting page waits op =>
    isIdentifier page = true ∧ (∀ w ∈ waits, w.HasNames) ∧ op.HasNames
  | .wait page w => isIdentifier page = true ∧ w.HasNames

/-! ### Names in plans -/

section

variable {a : Action} {root : Option String}

/-- What is waited for is named after a signal. -/
theorem exists_signal_of_mem_waitsOf {w : Wait} (hw : w ∈ waitsOf a) : ∃ s ∈ a.signals,
    w = .popup (nonEmptyOr "popup" s.popup) ∨ w = .download (nonEmptyOr "download" s.download) := by
  have hsignal {s : Signal} (h : waitOf? s = some w) :
      w = .popup (nonEmptyOr "popup" s.popup) ∨
        w = .download (nonEmptyOr "download" s.download) := by
    rw [waitOf?] at h
    split at h
    · exact .inl (Option.some.inj h).symm
    · exact .inr (Option.some.inj h).symm
    · cases h
  rw [waitsOf, List.mem_append, List.mem_filterMap, List.mem_filterMap] at hw
  rcases hw with ⟨s, hs, h⟩ | ⟨s, hs, h⟩
  · exact ⟨s, List.mem_of_mem_filter hs, hsignal h⟩
  · exact ⟨s, List.mem_of_mem_filter hs, hsignal h⟩

/-- What holds of a default and of a name, if there is one, holds of the one that is taken. -/
theorem nonEmptyOr_of {p : String → Prop} {default : String} {name : Option String}
    (hdefault : p default) (hname : ∀ v ∈ name, p v) : p (nonEmptyOr default name) := by
  cases name with
  | none => exact hdefault
  | some v =>
    rw [nonEmptyOr]
    split
    · exact hdefault
    · exact hname v rfl

theorem hasNames_of_mem_waitsOf (ha : a.HasNames) {w : Wait} (hw : w ∈ waitsOf a) : w.HasNames := by
  have hdefaults : isIdentifier "popup" = true ∧ isIdentifier "download" = true := by decide
  obtain ⟨s, hs, rfl | rfl⟩ := exists_signal_of_mem_waitsOf hw
  · exact nonEmptyOr_of hdefaults.1 (ha.popups s hs)
  · exact nonEmptyOr_of hdefaults.2 (ha.downloads s hs)

theorem hasNames_operation? (ha : a.HasNames) {op : Operation} (hop : operation? a = some op) :
    op.HasNames := by
  rw [operation?] at hop
  split at hop
  · obtain rfl := Option.some.inj hop
    exact ha.page
  · obtain ⟨s, hs, hop⟩ := Option.bind_eq_some_iff.mp hop
    have ht : Target.HasNames ⟨a.page, a.framePath, s⟩ := ⟨ha.page, ha.selector s hs⟩
    rw [elementOperation?] at hop
    split at hop
    · obtain rfl := Option.some.inj hop
      exact ⟨ht, ha.button, ha.modifiers⟩
    · obtain rfl := Option.some.inj hop
      exact ht
    · obtain rfl := Option.some.inj hop
      exact ht
    · obtain rfl := Option.some.inj hop
      exact ht
    · split at hop
      · split at hop
        · cases hop
        · obtain rfl := Option.some.inj hop
          exact ht
      · cases hop
    · obtain rfl := Option.some.inj hop
      exact ht
    · obtain rfl := Option.some.inj hop
      exact ht
    · cases hop

theorem hasNames_missingComment (k : SignalKind) : (missingComment k).HasNames := by
  have hname : isPlainText k.name = true := by cases k <;> exact isPlainText_given rfl rfl
  exact isPlainText_append (isPlainText_append (isPlainText_given rfl rfl) hname)
    (isPlainText_given rfl rfl)

theorem hasNames_performStatements (ha : a.HasNames) :
    ∀ st ∈ performStatements a, st.HasNames := by
  have hkind : isPlainText a.kind.name = true := by
    cases hk : a.kind with
    | other name =>
      refine List.all_eq_true.mpr fun c hc => ?_
      simp [isNameText_of_isIdentifier (ha.kind name hk) c hc]
    | _ => exact isPlainText_given rfl rfl
  intro st hst
  rw [performStatements] at hst
  split at hst
  · cases hst
  · obtain ⟨w, hw, rfl⟩ := List.mem_map.mp hst
    exact ⟨ha.page, hasNames_of_mem_waitsOf ha hw⟩
  · obtain ⟨w, hw, rfl⟩ := List.mem_map.mp hst
    exact ⟨ha.page, hasNames_of_mem_waitsOf ha hw⟩
  · split at hst
    · obtain rfl := List.mem_singleton.mp hst
      exact isPlainText_append (isPlainText_given rfl rfl) hkind
    · next op hop =>
      have hnames := hasNames_operation? ha hop
      split at hst
      · obtain rfl := List.mem_singleton.mp hst
        exact hnames
      · obtain rfl := List.mem_singleton.mp hst
        exact ⟨ha.page, fun w hw => hasNames_of_mem_waitsOf ha hw, hnames⟩

theorem hasNames_openStatements (ha : a.HasNames) :
    ∀ st ∈ openStatements root a, st.HasNames := by
  intro st hst
  rw [openStatements, List.mem_append] at hst
  rcases hst with hst | hst
  · split at hst
    · cases hst
    · obtain rfl := List.mem_singleton.mp hst
      exact ha.page
  · split at hst
    · split at hst
      · cases hst
      · obtain rfl := List.mem_singleton.mp hst
        exact ha.page
    · cases hst

theorem hasNames_statementsOf (ha : a.HasNames) (handlers : ℕ) :
    ∀ st ∈ (statementsOf root handlers a).1, st.HasNames := by
  have hcomments : ∀ st ∈ a.incompleteSignals.map missingComment, st.HasNames := by
    intro st hst
    obtain ⟨k, -, rfl⟩ := List.mem_map.mp hst
    exact hasNames_missingComment k
  intro st hst
  rw [statementsOf] at hst
  split at hst
  · exact (List.mem_append.mp hst).elim (hcomments st) (hasNames_openStatements ha st)
  · refine (List.mem_append.mp hst).elim (hcomments st) fun hst => ?_
    obtain rfl := List.mem_singleton.mp hst
    exact ha.page
  · split at hst
    · refine (List.mem_append.mp hst).elim (hcomments st) fun hst => ?_
      rcases List.mem_cons.mp hst with rfl | hst
      · exact ha.page
      · exact hasNames_performStatements ha st hst
    · exact (List.mem_append.mp hst).elim (hcomments st) (hasNames_performStatements ha st)

end

/-- **The names in a plan** are identifiers if those in its actions are. -/
theorem hasNames_plan {actions : List Action} (h : ∀ a ∈ actions, a.HasNames)
    (root : Option String) :
    ∀ st ∈ plan root actions, st.HasNames := by
  have hfrom (handlers : ℕ) : ∀ st ∈ planFrom root handlers actions, st.HasNames := by
    induction actions generalizing handlers with
    | nil => exact fun st hst => nomatch hst
    | cons a rest ih =>
      intro st hst
      rw [planFrom, List.mem_append] at hst
      exact hst.elim (hasNames_statementsOf (h a List.mem_cons_self) handlers st)
        (ih (fun b hb => h b (List.mem_cons_of_mem _ hb)) _ st)
  exact hfrom 0

/-! ### Languages -/

/-- **A language has its brackets in order**, and writes literals and comments in a dialect: its
header and its footer do together, and so do the lines of each statement. -/
structure Language.HasBrackets (l : Language) (d : Dialect) : Prop where
  /-- The footer closes what the header opens. -/
  frame : ∀ root : Option String, (∀ r ∈ root, isIdentifier r = true) →
    ∃ a, Passes d true [] (l.header root) a ∧ Passes d true a l.footer []
  /-- The lines of a statement close what they open. -/
  statement : ∀ (root : Option String) (st : Statement), (∀ r ∈ root, isIdentifier r = true) →
    st.HasNames → Passes d true [] (l.statement root st) []
  emptyBody : ∀ line ∈ l.emptyBody, IsCode d line
  bodyIndent : codeAfter d [] l.bodyIndent.toList = some (false, [])
  /-- There is a header. -/
  header : ∀ root, l.header root ≠ []

/-- The lines that open the root page, if there is one, close what they open. -/
theorem passes_rootLines {d : Dialect} {statement : Statement → List String} {margin : String}
    {text : List Char} (hmargin : margin = String.ofList text)
    (hrun : codeAfter d [] text = some (false, []))
    (hstatement : ∀ st : Statement, st.HasNames → Passes d true [] (statement st) [])
    {root : Option String} (hroot : ∀ r ∈ root, isIdentifier r = true) :
    Passes d true []
      (indent margin (root.toList.flatMap fun page => statement (.openPage page))) [] := by
  cases root with
  | none => exact .nil []
  | some page =>
    have hopens : Passes d true [] (statement (.openPage page)) [] := hstatement _ (hroot page rfl)
    simpa using hopens.indent hmargin hrun

namespace Language.HasBrackets

variable {l : Language} {d : Dialect} {actions : List Action} {aliases : AliasTable}

/-- **The body** closes the brackets that it opens. -/
theorem passes_body (h : l.HasBrackets d) (hactions : ∀ a ∈ actions, a.HasNames)
    (hroot : ∀ r ∈ aliases.root, isIdentifier r = true) :
    Passes d true [] (l.body actions aliases) [] := by
  have hstatements (sts : List Statement) (hsts : ∀ st ∈ sts, st.HasNames) :
      Passes d true [] (sts.flatMap (l.statement aliases.root)) [] := by
    induction sts with
    | nil => exact .nil []
    | cons st rest ih =>
      exact (h.statement _ st hroot (hsts st List.mem_cons_self)).append
        (ih fun st hst => hsts st (List.mem_cons_of_mem _ hst))
  have hplan := hstatements _ (hasNames_plan hactions aliases.root)
  rw [body]
  split
  · cases hempty : l.emptyBody with
    | none => exact .nil []
    | some line => exact passes_line (h.emptyBody line hempty)
  · exact hplan

/-- **All lines** of a program close the brackets that they open. -/
theorem passes_lines (h : l.HasBrackets d) (hactions : ∀ a ∈ actions, a.HasNames)
    (hroot : ∀ r ∈ aliases.root, isIdentifier r = true) :
    Passes d true [] (l.lines actions aliases) [] := by
  obtain ⟨a, hheader, hfooter⟩ := h.frame aliases.root hroot
  have hbody := (h.passes_body hactions hroot).indent String.ofList_toList.symm h.bodyIndent
  exact (hheader.append (hbody.frame a)).append hfooter

theorem toList_render (h : l.HasBrackets d) (actions : List Action) (aliases : AliasTable) :
    (l.render actions aliases).toList = textOf (l.lines actions aliases) :=
  toList_intercalate (by simp [lines, h.header])

/-- What is in a line of the body is in the program. -/
theorem mem_render (h : l.HasBrackets d) {line : String} (hline : line ∈ l.body actions aliases)
    {c : Char} (hc : c ∈ line.toList) : c ∈ (l.render actions aliases).toList := by
  have hindented : ∃ line' ∈ l.lines actions aliases, c ∈ line'.toList := by
    refine ⟨if line.isEmpty then line else l.bodyIndent ++ line, ?_, ?_⟩
    · exact List.mem_append_left _ (List.mem_append_right _ (List.mem_map_of_mem hline))
    · split
      · exact hc
      · rw [String.toList_append]
        exact List.mem_append_right _ hc
  obtain ⟨line', hline', hc⟩ := hindented
  rw [h.toList_render, textOf, List.mem_flatMap]
  exact ⟨line', hline', List.mem_append_left _ hc⟩

/-- **A program is scanned** to its end, and all brackets are closed there, unless a line end is
left in a literal. -/
theorem reaches_render (h : l.HasBrackets d) (hactions : ∀ a ∈ actions, a.HasNames)
    (hroot : ∀ r ∈ aliases.root, isIdentifier r = true) :
    Scan.start.Reaches d (l.render actions aliases).toList .start := by
  rw [h.toList_render]
  exact (h.passes_lines hactions hroot).reaches []

end Language.HasBrackets

end Program

end Scribe
