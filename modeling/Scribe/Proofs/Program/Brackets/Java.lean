import Scribe.Proofs.Program.Java
import Scribe.Proofs.Program.Naming

/-!
# Brackets in Java programs

The lines of Java programs are taken apart into names, literals and the code around them. Roles,
buttons and modifier keys are written as names in upper case. The lines of an operation close the
brackets that they open (`Scribe.Program.Java.passes_operation`), and so do those of a statement
(`Scribe.Program.Java.passes_statement`).
-/

namespace Scribe.Program.Java

open Text

/-! ### Expressions -/

theorem isCode_literal (s : String) : IsCode .java (literal s) :=
  isCode_quoted s

/-- A name in upper case is a name. -/
theorem isCode_uppered {s : String} (hs : isIdentifier s = true) : IsCode .java (uppered s) := by
  refine IsNameText.isCode ?_
  rw [uppered, String.toList_ofList]
  exact (isNameText_of_isIdentifier hs).upper

theorem isCode_selectorCall (inFrame : Bool) {s : Selector} (hs : s.HasNames) :
    IsCode .java (selectorCall inFrame s) := by
  cases s with
  | testId value => exact (isCode_literal value).between rfl rfl rfl rfl
  | label text => exact (isCode_literal text).between rfl rfl rfl rfl
  | placeholder text => exact (isCode_literal text).between rfl rfl rfl rfl
  | text text => exact (isCode_literal text).between rfl rfl rfl rfl
  | css css structural => exact (isCode_literal css).between rfl rfl rfl rfl
  | role kind name exact_ =>
    have hrole : IsCode .java s!"AriaRole.{uppered kind}" := (isCode_uppered hs).behind rfl rfl
    have howner : IsCode .java (if inFrame then "FrameLocator" else "Page") :=
      isCode_ite (isCode_given rfl rfl) (isCode_given rfl rfl)
    have hname : Scans .java [] (name.elim "" fun n => s!".setName({literal n})") false [] := by
      cases name with
      | none => exact scans_empty
      | some n => exact ((scans_code rfl rfl).then (isCode_literal n)).code rfl rfl
    have hexact : Scans .java [] (if exact_ then ".setExact(true)" else "") false [] := by
      split
      · exact scans_code rfl rfl
      · exact scans_empty
    unfold selectorCall
    dsimp only
    refine isCode_ite ?_ ?_
    · exact hrole.between rfl rfl rfl rfl
    · exact (((((scans_code rfl rfl).then hrole).code rfl rfl).then howner).code rfl rfl).append
        ((hname.append hexact).frame [.round]) |>.code rfl rfl |>.isCode

theorem isCode_locator {t : Target} (ht : t.HasNames) : IsCode .java (locator t) :=
  isCode_path (isCode_identifier ht.page) (fun css => (isCode_literal css).between rfl rfl rfl rfl)
    (isCode_selectorCall _ ht.selector)

theorem isCode_fileList (files : List String) : IsCode .java (fileList files) := by
  have hpath (file : String) : IsCode .java s!"Paths.get({literal file})" :=
    (isCode_literal file).between rfl rfl rfl rfl
  unfold fileList
  split
  · exact isCode_given rfl rfl
  · exact hpath _
  · exact (isCode_commaList (List.forall_mem_map.mpr fun file _ => hpath file)).between
      rfl rfl rfl rfl

theorem isCode_optionList (options : List String) : IsCode .java (optionList options) := by
  unfold optionList
  split
  · exact isCode_given rfl rfl
  · exact isCode_literal _
  · exact (isCode_commaList (List.forall_mem_map.mpr fun s _ => isCode_literal s)).between
      rfl rfl rfl rfl

/-! ### Operations -/

theorem passes_click {t : Target} (ht : t.HasNames) {button : String}
    (hbutton : isIdentifier button = true) (count : ℤ) {modifiers : List String}
    (hmodifiers : ∀ m ∈ modifiers, isIdentifier m = true) :
    Passes .java false [] (click t button count modifiers) [] := by
  have hmethod : IsCode .java (if count == 2 then "dblclick" else "click") :=
    isCode_ite (isCode_given rfl rfl) (isCode_given rfl rfl)
  have hclass : IsCode .java (if count == 2 then "DblclickOptions" else "ClickOptions") :=
    isCode_ite (isCode_given rfl rfl) (isCode_given rfl rfl)
  have hcall : Scans .java [] (locator t ++ "." ++
      if count == 2 then "dblclick" else "click") true [] :=
    (Scans.code (isCode_locator ht) rfl rfl).then hmethod
  have hheld : ∀ m ∈ modifiers, IsCode .java s!"KeyboardModifier.{uppered m}" :=
    fun m hm => (isCode_uppered (hmodifiers m hm)).behind rfl rfl
  have hbutton : IsCode .java s!".setButton(MouseButton.{uppered button})" :=
    (isCode_uppered hbutton).between rfl rfl rfl rfl
  have hmodifiers : IsCode .java (".setModifiers(Arrays.asList(" ++
      commaList (modifiers.map fun m => s!"KeyboardModifier.{uppered m}") ++ "))") :=
    (isCode_commaList (List.forall_mem_map.mpr hheld)).between rfl rfl rfl rfl
  have hcount (hmore : count > 2) : IsCode .java s!".setClickCount({count})" :=
    (isCode_toString (by omega)).between rfl rfl rfl rfl
  have hsetters :=
    forall_options (button == "left") modifiers.isEmpty (count > 2) hbutton hmodifiers
    hcount
  unfold click
  dsimp only
  split
  · exact passes_line (hcall.code rfl rfl)
  · have hlines : Passes .java false [] (List.map (fun setter => s!"  {setter}") _) [] :=
      passes_map fun setter hsetter => (hsetters setter hsetter).behind rfl rfl
    exact Passes.endWith (.code (((hcall.code rfl rfl).then hclass).code rfl rfl)
      (hlines.frame [.round])) (List.cons_ne_nil _ _) rfl rfl

/-- **An operation** closes the brackets that it opens. -/
theorem passes_operation {op : Operation} (hop : op.HasNames) :
    Passes .java false [] (operation op) [] := by
  cases op with
  | close page => exact passes_line ((isCode_identifier hop).before rfl rfl)
  | navigate page url =>
    exact passes_line ((isCode_identifier hop).call rfl rfl (isCode_literal url) rfl rfl)
  | click t button count modifiers => exact passes_click hop.1 hop.2.1 count hop.2.2
  | fill t text =>
    exact passes_line ((isCode_locator hop).call rfl rfl (isCode_literal text) rfl rfl)
  | check t on =>
    cases on with
    | true => exact passes_line ((isCode_locator hop).before rfl rfl)
    | false => exact passes_line ((isCode_locator hop).before rfl rfl)
  | press t key =>
    exact passes_line ((isCode_locator hop).call rfl rfl (isCode_literal key) rfl rfl)
  | setFiles t files =>
    exact passes_line ((isCode_locator hop).call rfl rfl (isCode_fileList files) rfl rfl)
  | select t options =>
    exact passes_line ((isCode_locator hop).call rfl rfl (isCode_optionList options) rfl rfl)

/-! ### Statements -/

theorem isCode_declaration {w : Wait} (hw : w.HasNames) : IsCode .java (declaration w) := by
  cases w with
  | popup v => exact (isCode_identifier hw).behind rfl rfl
  | download v => exact (isCode_identifier hw).behind rfl rfl

theorem isCode_waitMethod (w : Wait) : IsCode .java (waitMethod w) := by
  cases w <;> exact isCode_given rfl rfl

/-- **Blocks that wait** close the brackets that they open if the lines inside do. -/
theorem passes_nest {page : String} (hpage : IsCode .java page) {waits : List Wait}
    (hwaits : ∀ w ∈ waits, w.HasNames) {inner : List String}
    (hinner : Passes .java true [] inner []) :
    Passes .java true [] (nest page waits inner) [] := by
  induction waits with
  | nil => exact hinner
  | cons w rest ih =>
    have hrest := ih fun w' hw' => hwaits w' (List.mem_cons_of_mem _ hw')
    have hdeclaration := isCode_declaration (hwaits w List.mem_cons_self)
    exact .code (((((Scans.code hdeclaration rfl rfl).then hpage).code rfl rfl).then
        (isCode_waitMethod w)).code rfl rfl)
      (((hrest.indent rfl rfl).frame _).append (passes_line (scans_code rfl rfl)))

/-- **A statement** closes the brackets that it opens. -/
theorem passes_statement {st : Statement} (hst : st.HasNames) :
    Passes .java true [] (statement st) [] := by
  cases st with
  | comment text =>
    exact .remark rfl (IsRemark.append (isRemark_given rfl rfl rfl) hst) (.nil [])
  | openPage page => exact passes_line ((isCode_identifier hst).between rfl rfl rfl rfl)
  | perform op => exact ((passes_operation hst).endWith (isCall_operation op).ne_nil rfl rfl).mono
  | answerDialog page dismiss number =>
    have hmethod : IsCode .java (if dismiss then "dismiss" else "accept") :=
      isCode_ite (isCode_given rfl rfl) (isCode_given rfl rfl)
    exact .code (Scans.code (isCode_identifier hst) rfl rfl) <|
      .code (scans_code rfl rfl) <|
      .code (((scans_code rfl rfl).then hmethod).code rfl rfl) <|
      .code (scans_code rfl rfl) (.nil [])
  | performWaiting page waits op =>
    obtain ⟨hpage, hwaits, hop⟩ := hst
    exact passes_nest (isCode_identifier hpage) hwaits
      ((passes_operation hop).endWith (isCall_operation op).ne_nil rfl rfl).mono
  | wait page w =>
    obtain ⟨hpage, hw⟩ := hst
    exact passes_line ((((Scans.code (isCode_declaration hw) rfl rfl).then
      (isCode_identifier hpage)).code rfl rfl).then (isCode_waitMethod w) |>.code rfl rfl)

/-! ### The language -/

set_option maxRecDepth 1000 in
theorem program_hasBrackets : program.HasBrackets .java where
  frame root hroot := by
    refine ⟨[.curly, .curly, .curly], Passes.append ?_ (Passes.frame (passes_rootLines rfl rfl
      (fun _ => passes_statement) hroot) _), ?_⟩
    · repeat refine .code (scans_code rfl rfl) ?_
      exact .nil _
    · repeat refine .code (scans_code rfl rfl) ?_
      exact .nil _
  statement _ st _ hst := passes_statement hst
  emptyBody line hline := nomatch hline
  bodyIndent := rfl
  header root := by simp [program]

end Scribe.Program.Java
