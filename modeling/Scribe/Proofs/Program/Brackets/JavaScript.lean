import Scribe.Proofs.Program.JavaScript
import Scribe.Proofs.Program.Naming

/-!
# Brackets in JavaScript programs

The lines of JavaScript programs are taken apart into names, literals and the code around them. The
lines of an operation close the brackets that they open
(`Scribe.Program.JavaScript.passes_operation`), and so do those of a statement
(`Scribe.Program.JavaScript.passes_statement`).
-/

namespace Scribe.Program.JavaScript

open Text

/-! ### Expressions -/

theorem isCode_literal (s : String) : IsCode .javaScript (literal s) :=
  isCode_quoted s

theorem isCode_array (items : List String) : IsCode .javaScript (array items) :=
  (isCode_commaList (List.forall_mem_map.mpr fun s _ => isCode_literal s)).between rfl rfl rfl rfl

theorem isCode_oneOrMany (items : List String) : IsCode .javaScript (oneOrMany items) := by
  unfold oneOrMany
  split
  · exact isCode_literal _
  · exact isCode_array _

theorem isCode_selectorCall (s : Selector) : IsCode .javaScript (selectorCall s) := by
  cases s with
  | testId value => exact (isCode_literal value).between rfl rfl rfl rfl
  | label text => exact (isCode_literal text).between rfl rfl rfl rfl
  | placeholder text => exact (isCode_literal text).between rfl rfl rfl rfl
  | text text => exact (isCode_literal text).between rfl rfl rfl rfl
  | css css structural => exact (isCode_literal css).between rfl rfl rfl rfl
  | role kind name exact_ =>
    have hoptions : ∀ option ∈ (name.map fun n => s!"name: {literal n}").toList ++
        (if exact_ then ["exact: true"] else []), IsCode .javaScript option :=
      List.forall_mem_append.mpr ⟨forall_isCode_map name fun n => (isCode_literal n).behind rfl rfl,
        forall_isCode_ite (List.forall_mem_singleton.mpr (isCode_given rfl rfl))⟩
    unfold selectorCall
    dsimp only
    split
    · exact (isCode_literal kind).between rfl rfl rfl rfl
    · exact ((((scans_code rfl rfl).then (isCode_literal kind)).code rfl rfl).then
        (isCode_commaList hoptions)).code rfl rfl |>.isCode

theorem isCode_locator {t : Target} (ht : t.HasNames) : IsCode .javaScript (locator t) :=
  isCode_path (isCode_identifier ht.page) (fun css => (isCode_literal css).between rfl rfl rfl rfl)
    (isCode_selectorCall t.selector)

/-! ### Operations -/

theorem passes_optionLines {options : List String}
    (h : ∀ option ∈ options, IsCode .javaScript option) :
    Passes .javaScript false [] (optionLines options) [] := by
  induction options with
  | nil => exact .nil []
  | cons option rest ih =>
    have hoption := h option List.mem_cons_self
    cases rest with
    | nil => exact passes_line (hoption.behind rfl rfl)
    | cons next rest =>
      exact .code (hoption.between rfl rfl rfl rfl) (ih fun x hx => h x (List.mem_cons_of_mem _ hx))

theorem passes_click {t : Target} (ht : t.HasNames) (button : String) (count : ℤ)
    (modifiers : List String) :
    Passes .javaScript false [] (click t button count modifiers) [] := by
  have hmethod : IsCode .javaScript (if count == 2 then "dblclick" else "click") :=
    isCode_ite (isCode_given rfl rfl) (isCode_given rfl rfl)
  have hcall : Scans .javaScript [] (locator t ++ "." ++
      if count == 2 then "dblclick" else "click") true [] :=
    (Scans.code (isCode_locator ht) rfl rfl).then hmethod
  have hbutton : IsCode .javaScript s!"button: {literal button}" :=
    (isCode_literal button).behind rfl rfl
  have hmodifiers : IsCode .javaScript s!"modifiers: {array modifiers}" :=
    (isCode_array modifiers).behind rfl rfl
  have hcount (hmore : count > 2) : IsCode .javaScript s!"clickCount: {count}" :=
    (isCode_toString (by omega)).behind rfl rfl
  have hoptions :=
    forall_options (button == "left") modifiers.isEmpty (count > 2) hbutton hmodifiers
    hcount
  unfold click
  dsimp only
  split
  · exact passes_line (hcall.code rfl rfl)
  · exact .code (hcall.code rfl rfl)
      (((passes_optionLines hoptions).frame _).append (passes_line (scans_code rfl rfl)))

/-- **An operation** closes the brackets that it opens. -/
theorem passes_operation {op : Operation} (hop : op.HasNames) :
    Passes .javaScript false [] (operation op) [] := by
  cases op with
  | close page => exact passes_line ((isCode_identifier hop).before rfl rfl)
  | navigate page url =>
    exact passes_line ((isCode_identifier hop).call rfl rfl (isCode_literal url) rfl rfl)
  | click t button count modifiers => exact passes_click hop.1 button count modifiers
  | fill t text =>
    exact passes_line ((isCode_locator hop).call rfl rfl (isCode_literal text) rfl rfl)
  | check t on =>
    have hcall : IsCode .javaScript (locator t ++ if on then ".check()" else ".uncheck()") := by
      split
      · exact (isCode_locator hop).before rfl rfl
      · exact (isCode_locator hop).before rfl rfl
    exact passes_line hcall
  | press t key =>
    exact passes_line ((isCode_locator hop).call rfl rfl (isCode_literal key) rfl rfl)
  | setFiles t files =>
    exact passes_line ((isCode_locator hop).call rfl rfl (isCode_oneOrMany files) rfl rfl)
  | select t options =>
    exact passes_line ((isCode_locator hop).call rfl rfl (isCode_oneOrMany options) rfl rfl)

theorem operation_ne_nil (op : Operation) : operation op ≠ [] := by
  cases op with
  | click t button count modifiers =>
    unfold operation click
    dsimp only
    split <;> exact List.cons_ne_nil _ _
  | _ => simp [operation]

/-! ### Statements -/

theorem isCode_variableOf {w : Wait} (hw : w.HasNames) : IsCode .javaScript (variableOf w) := by
  cases w with
  | popup v => exact isCode_identifier hw
  | download v => exact isCode_identifier hw

theorem isCode_eventOf (w : Wait) : IsCode .javaScript (eventOf w) := by
  cases w <;> exact isCode_literal _

/-- **A statement** closes the brackets that it opens. -/
theorem passes_statement {context : String} (hcontext : IsCode .javaScript context) {st : Statement}
    (hst : st.HasNames) : Passes .javaScript true [] (statement context st) [] := by
  cases st with
  | comment text =>
    exact .remark rfl (IsRemark.append (isRemark_given rfl rfl rfl) hst) (.nil [])
  | openPage page =>
    exact passes_line (((((scans_code rfl rfl).then (isCode_identifier hst)).code rfl rfl).then
      hcontext).code rfl rfl)
  | perform op =>
    exact (((passes_operation hst).endWith (operation_ne_nil op) rfl rfl).startWith rfl rfl).mono
  | answerDialog page dismiss number =>
    have hmethod : IsCode .javaScript (if dismiss then "dismiss" else "accept") :=
      isCode_ite (isCode_given rfl rfl) (isCode_given rfl rfl)
    exact .code (Scans.code (isCode_identifier hst) rfl rfl) <|
      .code (scans_code rfl rfl) <|
      .code (((scans_code rfl rfl).then hmethod).code rfl rfl) <|
      .code (scans_code rfl rfl) (.nil [])
  | performWaiting page waits op =>
    obtain ⟨hpage, hwaits, hop⟩ := hst
    have hnames :=
      isCode_commaList (List.forall_mem_map.mpr fun w hw => isCode_variableOf (hwaits w hw))
    have hevents : Passes .javaScript true []
        (waits.map fun w => s!"  {page}.waitForEvent({eventOf w}),") [] :=
      passes_map fun w _ =>
        ((((scans_code rfl rfl).then (isCode_identifier hpage)).code rfl rfl).then
          (isCode_eventOf w)).code rfl rfl |>.isCode
    have hlines : Passes .javaScript false [] (indent "  " (operation op)) [] :=
      (passes_operation hop).indent rfl rfl
    exact (((passes_line (((scans_code rfl rfl).then hnames).code rfl rfl)).append
      (hevents.frame _)).append (hlines.mono.frame _)).append (passes_line (scans_code rfl rfl))
  | wait page w =>
    obtain ⟨hpage, hw⟩ := hst
    exact passes_line (((((((scans_code rfl rfl).then (isCode_variableOf hw)).code rfl rfl).then
      (isCode_identifier hpage)).code rfl rfl).then (isCode_eventOf w)).code rfl rfl)

/-! ### Languages -/

theorem script_hasBrackets : script.HasBrackets .javaScript where
  frame root hroot := by
    refine ⟨[.curly, .round], Passes.append ?_ (Passes.frame (passes_rootLines rfl rfl
      (fun _ => passes_statement (isCode_given rfl rfl)) hroot) _), ?_⟩
    · repeat refine .code (scans_code rfl rfl) ?_
      exact .nil _
    · refine .code (scans_code rfl rfl) <| .remark rfl (isRemark_given rfl rfl rfl) ?_
      repeat refine .code (scans_code rfl rfl) ?_
      exact .nil _
  statement root st hroot hst := passes_statement (isCode_given rfl rfl) hst
  emptyBody line hline := nomatch hline
  bodyIndent := rfl
  header root := by simp [script]

theorem test_hasBrackets : test.HasBrackets .javaScript where
  frame root hroot := by
    have hfixture : IsCode .javaScript (root.getD "context") := by
      cases root with
      | none => exact isCode_given rfl rfl
      | some page => exact isCode_identifier (hroot page rfl)
    exact ⟨_, .code (scans_code rfl rfl) <| .code (scans_code rfl rfl) <|
      .code (((scans_code rfl rfl).then hfixture).code rfl rfl) (.nil _),
      .code (scans_code rfl rfl) (.nil [])⟩
  statement root st hroot hst := by
    refine passes_statement ?_ hst
    cases root with
    | none => exact isCode_given rfl rfl
    | some page => exact (isCode_identifier (hroot page rfl)).before rfl rfl
  emptyBody line hline := nomatch hline
  bodyIndent := rfl
  header root := by simp [test]

end Scribe.Program.JavaScript
