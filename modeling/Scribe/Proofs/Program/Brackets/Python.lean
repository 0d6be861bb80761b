import Scribe.Proofs.Program.Naming
import Scribe.Proofs.Program.Python

/-!
# Brackets in Python programs

The lines of Python programs are taken apart into names, literals and the code around them. An
operation is one piece of code (`Scribe.Program.Python.isCode_operation`), and the lines of a
statement close the brackets that they open (`Scribe.Program.Python.passes_statement`).
-/

namespace Scribe.Program.Python

open Text

/-! ### Expressions -/

theorem isCode_literal (s : String) : IsCode .python (literal s) :=
  isCode_quoted s

theorem isCode_list (items : List String) : IsCode .python (list items) :=
  (isCode_commaList (List.forall_mem_map.mpr fun s _ => isCode_literal s)).between rfl rfl rfl rfl

theorem isCode_oneOrMany (items : List String) : IsCode .python (oneOrMany items) := by
  unfold oneOrMany
  split
  · exact isCode_literal _
  · exact isCode_list _

theorem isCode_selectorCall (s : Selector) : IsCode .python (selectorCall s) := by
  cases s with
  | testId value => exact (isCode_literal value).between rfl rfl rfl rfl
  | label text => exact (isCode_literal text).between rfl rfl rfl rfl
  | placeholder text => exact (isCode_literal text).between rfl rfl rfl rfl
  | text text => exact (isCode_literal text).between rfl rfl rfl rfl
  | css css structural => exact (isCode_literal css).between rfl rfl rfl rfl
  | role kind name exact_ =>
    have hargs : ∀ arg ∈ literal kind :: (name.map fun n => s!"name={literal n}").toList ++
        (if exact_ then ["exact=True"] else []), IsCode .python arg :=
      List.forall_mem_append.mpr ⟨List.forall_mem_cons.mpr ⟨isCode_literal kind,
          forall_isCode_map name fun n => (isCode_literal n).behind rfl rfl⟩,
        forall_isCode_ite (List.forall_mem_singleton.mpr (isCode_given rfl rfl))⟩
    exact (isCode_commaList hargs).between rfl rfl rfl rfl

theorem isCode_locator {t : Target} (ht : t.HasNames) : IsCode .python (locator t) :=
  isCode_path (isCode_identifier ht.page) (fun css => (isCode_literal css).between rfl rfl rfl rfl)
    (isCode_selectorCall t.selector)

/-! ### Operations -/

theorem isCode_click {t : Target} (ht : t.HasNames) (button : String) (count : ℤ)
    (modifiers : List String) : IsCode .python (click t button count modifiers) := by
  have hmethod : IsCode .python (if count == 2 then "dblclick" else "click") :=
    isCode_ite (isCode_given rfl rfl) (isCode_given rfl rfl)
  have hcall : Scans .python [] (locator t ++ "." ++
      if count == 2 then "dblclick" else "click") true [] :=
    (Scans.code (isCode_locator ht) rfl rfl).then hmethod
  have hbutton : IsCode .python s!"button={literal button}" :=
    (isCode_literal button).behind rfl rfl
  have hmodifiers : IsCode .python s!"modifiers={list modifiers}" :=
    (isCode_list modifiers).behind rfl rfl
  have hcount (hmore : count > 2) : IsCode .python s!"click_count={count}" :=
    (isCode_toString (by omega)).behind rfl rfl
  have hoptions :=
    forall_options (button == "left") modifiers.isEmpty (count > 2) hbutton hmodifiers
    hcount
  exact ((hcall.code rfl rfl).then (isCode_commaList hoptions)).code rfl rfl |>.isCode

/-- **An operation** is a piece of code. -/
theorem isCode_operation {op : Operation} (hop : op.HasNames) : IsCode .python (operation op) := by
  cases op with
  | close page => exact (isCode_identifier hop).before rfl rfl
  | navigate page url => exact (isCode_identifier hop).call rfl rfl (isCode_literal url) rfl rfl
  | click t button count modifiers => exact isCode_click hop.1 button count modifiers
  | fill t text => exact (isCode_locator hop).call rfl rfl (isCode_literal text) rfl rfl
  | check t on =>
    cases on with
    | true => exact (isCode_locator hop).before rfl rfl
    | false => exact (isCode_locator hop).before rfl rfl
  | press t key => exact (isCode_locator hop).call rfl rfl (isCode_literal key) rfl rfl
  | setFiles t files => exact (isCode_locator hop).call rfl rfl (isCode_oneOrMany files) rfl rfl
  | select t options => exact (isCode_locator hop).call rfl rfl (isCode_oneOrMany options) rfl rfl

/-! ### Statements -/

theorem isCode_variableOf {w : Wait} (hw : w.HasNames) : IsCode .python (variableOf w) := by
  cases w with
  | popup v => exact isCode_identifier hw
  | download v => exact isCode_identifier hw

theorem isCode_expectation (w : Wait) : IsCode .python (expectation w) := by
  cases w <;> exact isCode_given rfl rfl

theorem isCode_eventOf (w : Wait) : IsCode .python (eventOf w) := by
  cases w <;> exact isCode_literal _

/-- The word in front of a call leaves room for any code. -/
theorem scans_awaiting (awaits : Bool) : Scans .python [] (awaiting awaits) false [] := by
  cases awaits with
  | true => exact scans_code rfl rfl
  | false => exact scans_empty

/-- **Blocks that wait** close the brackets that they open if the lines inside do. -/
theorem passes_nest {page : String} (hpage : IsCode .python page) (awaits : Bool)
    {waits : List Wait} (hwaits : ∀ w ∈ waits, w.HasNames) {inner : List String}
    (hinner : Passes .python true [] inner []) :
    Passes .python true [] (nest awaits page waits inner) [] := by
  induction waits with
  | nil => exact hinner
  | cons w rest ih =>
    have hvariable := isCode_variableOf (hwaits w List.mem_cons_self)
    have hinfo : IsCode .python s!"{variableOf w}_info" := hvariable.before rfl rfl
    have hkeyword : IsCode .python (if awaits then "async with" else "with") :=
      isCode_ite (isCode_given rfl rfl) (isCode_given rfl rfl)
    have hrest := ih fun w' hw' => hwaits w' (List.mem_cons_of_mem _ hw')
    refine .code (?opens : IsCode .python _)
      ((hrest.indent rfl rfl).append (passes_line (?closes : IsCode .python _)))
    case opens =>
      exact (((((Scans.code hkeyword rfl rfl).then hpage).code rfl rfl).then
        (isCode_expectation w)).code rfl rfl).then hinfo |>.code rfl rfl |>.isCode
    case closes =>
      exact (((Scans.code hvariable rfl rfl).append (scans_awaiting awaits)).then hinfo).code
        rfl rfl |>.isCode

/-- **A statement** closes the brackets that it opens. -/
theorem passes_statement (awaits : Bool) {context : String} (hcontext : IsCode .python context)
    {st : Statement} (hst : st.HasNames) :
    Passes .python true [] (statement awaits context st) [] := by
  cases st with
  | comment text =>
    exact .remark rfl (IsRemark.append (isRemark_given rfl rfl rfl) hst) (.nil [])
  | openPage page =>
    exact passes_line ((((Scans.code (isCode_identifier hst) rfl rfl).append
      (scans_awaiting awaits)).then hcontext).code rfl rfl)
  | perform op => exact passes_line ((scans_awaiting awaits).then (isCode_operation hst))
  | answerDialog page dismiss number =>
    have hmethod : IsCode .python (if dismiss then "dismiss" else "accept") :=
      isCode_ite (isCode_given rfl rfl) (isCode_given rfl rfl)
    exact passes_line (((Scans.code (isCode_identifier hst) rfl rfl).then hmethod).code rfl rfl)
  | performWaiting page waits op =>
    obtain ⟨hpage, hwaits, hop⟩ := hst
    exact passes_nest (isCode_identifier hpage) awaits hwaits
      (passes_line ((scans_awaiting awaits).then (isCode_operation hop)))
  | wait page w =>
    obtain ⟨hpage, hw⟩ := hst
    exact passes_line (((((Scans.code (isCode_variableOf hw) rfl rfl).append
      (scans_awaiting awaits)).then (isCode_identifier hpage)).code rfl rfl).then
        (isCode_eventOf w) |>.code rfl rfl)

/-! ### Languages -/

theorem script_hasBrackets : script.HasBrackets .python where
  frame root hroot := by
    refine ⟨[], Passes.append ?_ (passes_rootLines rfl rfl
      (fun _ => passes_statement false (isCode_given rfl rfl)) hroot), ?_⟩
    · repeat refine .code (scans_code rfl rfl) ?_
      exact .nil _
    · refine .code (scans_code rfl rfl) <| .remark rfl (isRemark_given rfl rfl rfl) ?_
      repeat refine .code (scans_code rfl rfl) ?_
      exact .nil _
  statement root st hroot hst := passes_statement false (isCode_given rfl rfl) hst
  emptyBody line hline := nomatch hline
  bodyIndent := rfl
  header root := by simp [script]

theorem asyncScript_hasBrackets : asyncScript.HasBrackets .python where
  frame root hroot := by
    refine ⟨[], Passes.append ?_ (passes_rootLines rfl rfl
      (fun _ => passes_statement true (isCode_given rfl rfl)) hroot), ?_⟩
    · repeat refine .code (scans_code rfl rfl) ?_
      exact .nil _
    · refine .code (scans_code rfl rfl) <| .remark rfl (isRemark_given rfl rfl rfl) ?_
      repeat refine .code (scans_code rfl rfl) ?_
      exact .nil _
  statement root st hroot hst := passes_statement true (isCode_given rfl rfl) hst
  emptyBody line hline := nomatch hline
  bodyIndent := rfl
  header root := by simp [asyncScript]

theorem test_hasBrackets : test.HasBrackets .python where
  frame root hroot := by
    refine ⟨[], ?_, .nil []⟩
    cases root with
    | none =>
      repeat refine .code (scans_code rfl rfl) ?_
      exact .nil _
    | some page =>
      exact .code (scans_code rfl rfl) <| .code (scans_code rfl rfl) <|
        .code (scans_code rfl rfl) <| .code (scans_code rfl rfl) <|
        passes_line (((scans_code rfl rfl).then (isCode_identifier (hroot page rfl))).code rfl rfl)
  statement root st hroot hst := by
    refine passes_statement false ?_ hst
    cases root with
    | none => exact isCode_given rfl rfl
    | some page => exact (isCode_identifier (hroot page rfl)).before rfl rfl
  emptyBody line hline := by
    obtain rfl := Option.some.inj hline
    exact isCode_given rfl rfl
  bodyIndent := rfl
  header root := by cases root <;> simp [test]

end Scribe.Program.Python
