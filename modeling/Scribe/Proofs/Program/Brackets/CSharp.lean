import Scribe.Proofs.Program.CSharp
import Scribe.Proofs.Program.Naming

/-!
# Brackets in C# programs

The lines of C# programs are taken apart into names, literals and the code around them. Roles and
buttons are written as names with a large letter in front, downloads as names with a number behind
them, and dialog handlers as names made of several (`Scribe.Program.CSharp.isCode_handler`). The
lines of an operation close the brackets that they open (`Scribe.Program.CSharp.passes_operation`),
and so do those of a statement (`Scribe.Program.CSharp.passes_statement`).
-/

namespace Scribe.Program.CSharp

open Text

/-! ### Names -/

theorem isNameText_natText (n : ℕ) : IsNameText (natText n) := fun _ hc =>
  isNameChar_of_isDigit (Nat.isDigit_of_mem_toDigits (by decide) (by decide) hc)

/-- The name of a role is a name. -/
theorem isCode_roleName {role : String} (hrole : isIdentifier role = true) :
    IsCode .csharp (roleName role) := by
  have hname := isNameText_of_isIdentifier hrole
  refine IsNameText.isCode ?_
  rw [roleName]
  split
  · intro _ hc
    simp at hc
  · next c rest hlist =>
    rw [hlist] at hname
    obtain ⟨hfirst, hrest⟩ := List.forall_mem_cons.mp hname
    rw [String.toList_ofList]
    have hupper : IsNameText (upper [c]) := IsNameText.upper (List.forall_mem_singleton.mpr hfirst)
    rw [upper, List.flatMap_singleton] at hupper
    exact hupper.append (IsNameText.lowerFrom hrest [])

theorem isCode_capitalized {s : String} (hs : isIdentifier s = true) :
    IsCode .csharp (capitalized s) := by
  refine IsNameText.isCode ?_
  rw [capitalized, String.toList_ofList]
  exact (isNameText_of_isIdentifier hs).capitalize

/-- The variable of a download is a name. -/
theorem isCode_downloadVariable {download : String} (h : isIdentifier download = true) :
    IsCode .csharp (downloadVariable download) := by
  have hname := isNameText_of_isIdentifier h
  refine IsNameText.isCode ?_
  rw [downloadVariable, String.toList_ofList]
  refine IsNameText.append (fun c hc => hname c ?_) (isNameText_natText _)
  exact List.mem_reverse.mp ((List.dropWhile_sublist _).subset (List.mem_reverse.mp hc))

/-- **The name of a dialog handler** is a name. -/
theorem isCode_handler {page : String} (hpage : isIdentifier page = true) (number : ℕ) :
    IsCode .csharp (handler page number) := by
  have hparts : handler page number = page ++ "_Dialog" ++ number.repr ++ "_EventHandler" := rfl
  have hdialog : IsNameText "_Dialog".toList := isNameText_of_isIdentifier (by decide)
  have hlast : IsNameText "_EventHandler".toList := isNameText_of_isIdentifier (by decide)
  refine IsNameText.isCode ?_
  rw [hparts, String.toList_append, String.toList_append, String.toList_append, Nat.toList_repr]
  exact (((isNameText_of_isIdentifier hpage).append hdialog).append
    (isNameText_natText number)).append hlast

/-! ### Expressions -/

theorem isCode_literal (s : String) : IsCode .csharp (literal s) :=
  isCode_quoted s

theorem isCode_array (items : List String) : IsCode .csharp (array items) :=
  (isCode_commaList (List.forall_mem_map.mpr fun s _ => isCode_literal s)).between rfl rfl rfl rfl

theorem isCode_selectorCall {s : Selector} (hs : s.HasNames) : IsCode .csharp (selectorCall s) := by
  cases s with
  | testId value => exact (isCode_literal value).between rfl rfl rfl rfl
  | label text => exact (isCode_literal text).between rfl rfl rfl rfl
  | placeholder text => exact (isCode_literal text).between rfl rfl rfl rfl
  | text text => exact (isCode_literal text).between rfl rfl rfl rfl
  | css css structural => exact (isCode_literal css).between rfl rfl rfl rfl
  | role kind name exact_ =>
    have hrole : IsCode .csharp s!"AriaRole.{roleName kind}" := (isCode_roleName hs).behind rfl rfl
    have hoptions : ∀ option ∈ (name.map fun n => s!"NameString = {literal n}").toList ++
        (if exact_ then ["Exact = true"] else []), IsCode .csharp option :=
      List.forall_mem_append.mpr ⟨forall_isCode_map name fun n => (isCode_literal n).behind rfl rfl,
        forall_isCode_ite (List.forall_mem_singleton.mpr (isCode_given rfl rfl))⟩
    unfold selectorCall
    dsimp only
    split
    · exact hrole.between rfl rfl rfl rfl
    · exact ((((scans_code rfl rfl).then hrole).code rfl rfl).then
        (isCode_commaList hoptions)).code rfl rfl |>.isCode

theorem isCode_locator {t : Target} (ht : t.HasNames) : IsCode .csharp (locator t) :=
  isCode_path (isCode_identifier ht.page) (fun css => (isCode_literal css).between rfl rfl rfl rfl)
    (isCode_selectorCall ht.selector)

/-! ### Operations -/

theorem passes_click {t : Target} (ht : t.HasNames) {button : String}
    (hbutton : isIdentifier button = true) (count : ℤ) {modifiers : List String}
    (hmodifiers : ∀ m ∈ modifiers, isIdentifier m = true) :
    Passes .csharp false [] (click t button count modifiers) [] := by
  have hmethod : IsCode .csharp (if count == 2 then "DblClickAsync" else "ClickAsync") :=
    isCode_ite (isCode_given rfl rfl) (isCode_given rfl rfl)
  have hclass : IsCode .csharp
      (if count == 2 then "LocatorDblClickOptions" else "LocatorClickOptions") :=
    isCode_ite (isCode_given rfl rfl) (isCode_given rfl rfl)
  have hcall : Scans .csharp [] (locator t ++ "." ++
      if count == 2 then "DblClickAsync" else "ClickAsync") true [] :=
    (Scans.code (isCode_locator ht) rfl rfl).then hmethod
  have hheld : IsCode .csharp (commaList (modifiers.map fun m => s!"KeyboardModifier.{m}")) :=
    isCode_commaList (List.forall_mem_map.mpr fun m hm =>
      (isCode_identifier (hmodifiers m hm)).behind rfl rfl)
  have hbutton : IsCode .csharp s!"Button = MouseButton.{capitalized button}" :=
    (isCode_capitalized hbutton).behind rfl rfl
  have hmodifiers : IsCode .csharp s!"Modifiers = new[] \x7b {heldKeys modifiers} \x7d" :=
    hheld.between rfl rfl rfl rfl
  have hcount (hmore : count > 2) : IsCode .csharp s!"ClickCount = {count}" :=
    (isCode_toString (by omega)).behind rfl rfl
  have hoptions :=
    forall_options (button == "left") modifiers.isEmpty (count > 2) hbutton hmodifiers
    hcount
  unfold click
  dsimp only
  split
  · exact passes_line (hcall.code rfl rfl)
  · have hlines : Passes .csharp false [] (List.map (fun option => s!"    {option},") _) [] :=
      passes_map fun option hoption => (hoptions option hoption).between rfl rfl rfl rfl
    exact .code ((hcall.code rfl rfl).then hclass) <| .code (scans_code rfl rfl) <|
      (hlines.frame [.curly, .round]).append (passes_line (scans_code rfl rfl))

/-- **An operation** closes the brackets that it opens. -/
theorem passes_operation {op : Operation} (hop : op.HasNames) :
    Passes .csharp false [] (operation op) [] := by
  cases op with
  | close page => exact passes_line ((isCode_identifier hop).before rfl rfl)
  | navigate page url =>
    exact passes_line ((isCode_identifier hop).call rfl rfl (isCode_literal url) rfl rfl)
  | click t button count modifiers => exact passes_click hop.1 hop.2.1 count hop.2.2
  | fill t text =>
    exact passes_line ((isCode_locator hop).call rfl rfl (isCode_literal text) rfl rfl)
  | check t on =>
    cases on with
    | true => exact passes_line ((isCode_locator hop).before rfl rfl)
    | false => exact passes_line ((isCode_locator hop).before rfl rfl)
  | press t key =>
    exact passes_line ((isCode_locator hop).call rfl rfl (isCode_literal key) rfl rfl)
  | setFiles t files =>
    exact passes_line ((isCode_locator hop).call rfl rfl (isCode_array files) rfl rfl)
  | select t options =>
    exact passes_line ((isCode_locator hop).call rfl rfl (isCode_array options) rfl rfl)

theorem passes_performed {op : Operation} (hop : op.HasNames) :
    Passes .csharp true [] (performed op) [] :=
  (((passes_operation hop).endWith (isCall_operation op).ne_nil rfl rfl).startWith rfl rfl).mono

/-! ### Statements -/

theorem isCode_variableOf {w : Wait} (hw : w.HasNames) : IsCode .csharp (variableOf w) := by
  cases w with
  | popup v => exact isCode_identifier hw
  | download v => exact isCode_downloadVariable hw

theorem isCode_runMethod (w : Wait) : IsCode .csharp (runMethod w) := by
  cases w <;> exact isCode_given rfl rfl

theorem isCode_waitMethod (w : Wait) : IsCode .csharp (waitMethod w) := by
  cases w <;> exact isCode_given rfl rfl

/-- **Blocks that wait** close the brackets that they open if the lines inside do. -/
theorem passes_nest {page : String} (hpage : IsCode .csharp page) {waits : List Wait}
    (hwaits : ∀ w ∈ waits, w.HasNames) {inner : List String}
    (hinner : Passes .csharp true [] inner []) :
    Passes .csharp true [] (nest page waits inner) [] := by
  induction waits with
  | nil => exact hinner
  | cons w rest ih =>
    have hrest := ih fun w' hw' => hwaits w' (List.mem_cons_of_mem _ hw')
    have hvariable := isCode_variableOf (hwaits w List.mem_cons_self)
    exact .code (((((scans_code rfl rfl).then hvariable).code rfl rfl).then hpage).code
        rfl rfl |>.then (isCode_runMethod w) |>.code rfl rfl) <|
      .code (scans_code rfl rfl)
        (((hrest.indent rfl rfl).frame _).append (passes_line (scans_code rfl rfl)))

/-- **A statement** closes the brackets that it opens. -/
theorem passes_statement {st : Statement} (hst : st.HasNames) :
    Passes .csharp true [] (statement st) [] := by
  cases st with
  | comment text =>
    exact .remark rfl (IsRemark.append (isRemark_given rfl rfl rfl) hst) (.nil [])
  | openPage page => exact passes_line ((isCode_identifier hst).between rfl rfl rfl rfl)
  | perform op => exact passes_performed hst
  | answerDialog page dismiss number =>
    have hmethod : IsCode .csharp (if dismiss then "DismissAsync" else "AcceptAsync") :=
      isCode_ite (isCode_given rfl rfl) (isCode_given rfl rfl)
    have hhandler := isCode_handler hst number
    have hpage : IsCode .csharp page := isCode_identifier hst
    exact .code (hhandler.between rfl rfl rfl rfl) <|
      .code (scans_code rfl rfl) <|
      .code (scans_code rfl rfl) <|
      .code (((scans_code rfl rfl).then hmethod).code rfl rfl) <|
      .code (((((scans_code rfl rfl).then hpage).code rfl rfl).then hhandler).code rfl rfl) <|
      .code (scans_code rfl rfl) <|
      passes_line (hpage.call rfl rfl hhandler rfl rfl)
  | performWaiting page waits op =>
    obtain ⟨hpage, hwaits, hop⟩ := hst
    exact passes_nest (isCode_identifier hpage) hwaits (passes_performed hop)
  | wait page w =>
    obtain ⟨hpage, hw⟩ := hst
    exact passes_line (((((scans_code rfl rfl).then (isCode_variableOf hw)).code rfl rfl).then
      (isCode_identifier hpage)).code rfl rfl |>.then (isCode_waitMethod w) |>.code rfl rfl)

/-! ### The language -/

set_option maxRecDepth 1000 in
theorem program_hasBrackets : program.HasBrackets .csharp where
  frame root hroot := by
    refine ⟨[.curly, .curly], Passes.append ?_ (Passes.frame (passes_rootLines rfl rfl
      (fun _ => passes_statement) hroot) _), ?_⟩
    · repeat refine .code (scans_code rfl rfl) ?_
      -- the longest line is written in two parts
      refine .code ((scans_code rfl rfl).code rfl rfl) ?_
      repeat refine .code (scans_code rfl rfl) ?_
      exact .nil _
    · repeat refine .code (scans_code rfl rfl) ?_
      exact .nil _
  statement _ st _ hst := passes_statement hst
  emptyBody line hline := nomatch hline
  bodyIndent := rfl
  header root := by simp [program]

end Scribe.Program.CSharp
