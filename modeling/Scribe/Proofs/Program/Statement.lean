import Scribe.Event
import Scribe.Proofs.Program.Lines
import Mathlib.Data.List.Perm.Basic

/-!
# Statements and their lines

What a statement of a plan does to pages: the pages on which it calls methods
(`Scribe.Program.Statement.uses`) and those that it declares (`Scribe.Program.Statement.pages`).
`Scribe.Program.Renders` says that lines read as their statement does, and
`Scribe.Program.Language.Reads` that a language writes such lines, in a frame that takes care of the
root page.

The scoping of a program is then that of its plan, whatever the language
(`Scribe.Program.Language.Reads.properlyScoped_iff`), and so are its declarations
(`Scribe.Program.Language.Reads.declaredOnce_iff`).
-/

namespace Scribe.Program

/-! ### What statements do -/

/-- The page of an operation. -/
def Operation.page : Operation → String
  | .close page => page
  | .navigate page _ => page
  | .click target _ _ _ => target.page
  | .fill target _ => target.page
  | .check target _ => target.page
  | .press target _ => target.page
  | .setFiles target _ => target.page
  | .select target _ => target.page

/-- The page of a popup that is waited for. -/
def Wait.popup? : Wait → Option String
  | .popup v => some v
  | .download _ => none

/-- The variable that receives what is waited for, in a language that names downloads in its own
way. -/
def Wait.var (rename : String → String) : Wait → String
  | .popup v => v
  | .download v => rename v

/-- Whether popups are received by pages, and downloads by downloads. -/
def Wait.IsNamed : Wait → Prop
  | .popup v => isPageName v = true
  | .download v => isOver "download" v = true

/-- Whether the buttons and keys of a click are some that there are. -/
def Operation.IsPlain : Operation → Prop
  | .click _ button _ modifiers =>
    (∃ b : MouseButton, button = b.name) ∧ ∀ m ∈ modifiers, m ∈ modifierOrder
  | _ => True

namespace Statement

/-- **The pages on which a statement calls methods.** -/
def uses : Statement → List String
  | comment _ | openPage _ => []
  | perform op => [op.page]
  | answerDialog page _ _ | performWaiting page _ _ | wait page _ => [page]

/-- What a statement waits for. -/
def waits : Statement → List Wait
  | performWaiting _ waits _ => waits
  | wait _ w => [w]
  | _ => []

/-- **The pages that a statement declares.** -/
def pages : Statement → List String
  | openPage page => [page]
  | st => st.waits.filterMap Wait.popup?

/-- **The variables that a statement declares.** -/
def vars (rename : String → String) : Statement → List String
  | openPage page => [page]
  | st => st.waits.map (Wait.var rename)

/-- The page and the number of a dialog handler. -/
def dialog? : Statement → Option (String × ℕ)
  | answerDialog page _ number => some (page, number)
  | _ => none

/-- **A plain statement** names its variables as logs do, waits for one popup at most, and first for
that. -/
def IsPlain : Statement → Prop
  | comment text => IsQuiet text ∧ (namesIn text.toList).head? ≠ some "void".toList
  | openPage page => isPageName page = true
  | perform op => isPageName op.page = true ∧ op.IsPlain
  | answerDialog page _ _ => isPageName page = true
  | performWaiting page waits op =>
    (isPageName page = true ∧ op.page = page ∧ op.IsPlain) ∧ waits ≠ [] ∧
      (∀ w ∈ waits, w.IsNamed) ∧ ∀ w ∈ waits.tail, w.popup? = none
  | wait page w => isPageName page = true ∧ w.IsNamed

/-- A statement that does not declare the root page or a page on which it calls a method. -/
def IsFresh (st : Statement) : Prop :=
  ∀ page ∈ st.pages, page ≠ rootAlias ∧ page ∉ st.uses

end Statement

/-- **Each used page is known**, when some are to begin with, and those that statements declare from
there on. -/
def PlanScoped : List String → List Statement → Prop :=
  ScopedFrom Statement.uses Statement.pages

section

variable {st : Statement} {rename : String → String} {page : String}

theorem Statement.IsPlain.uses (h : st.IsPlain) (hpage : page ∈ st.uses) :
    isPageName page = true := by
  cases st <;> simp only [Statement.uses, List.mem_singleton, List.not_mem_nil] at hpage
  all_goals subst hpage
  · exact h.1
  · exact h
  · exact h.1.1
  · exact h.1

theorem Statement.IsPlain.isNamed (h : st.IsPlain) {w : Wait} (hw : w ∈ st.waits) : w.IsNamed := by
  cases st <;> simp only [Statement.waits, List.mem_singleton, List.not_mem_nil] at hw
  · exact h.2.2.1 w hw
  · exact hw ▸ h.2

/-- The pages among the variables of a plain statement are those that it declares. -/
theorem Statement.IsPlain.mem_vars_iff (h : st.IsPlain)
    (hrename : ∀ name, isOver "download" name = true → isOver "download" (rename name) = true)
    (hpage : isPageName page = true) : page ∈ st.vars rename ↔ page ∈ st.pages := by
  have hwaits : ∀ waits : List Wait, (∀ w ∈ waits, w.IsNamed) →
      (page ∈ waits.map (Wait.var rename) ↔ page ∈ waits.filterMap Wait.popup?) := by
    intro waits hnamed
    rw [List.mem_map, List.mem_filterMap]
    refine exists_congr fun w => and_congr_right fun hw => ?_
    cases w with
    | popup v => simp [Wait.var, Wait.popup?]
    | download v =>
      have hv := not_isPageName_of_isOver_download (hrename v (hnamed _ hw))
      simp only [Wait.var, Wait.popup?, reduceCtorEq, iff_false]
      rintro rfl
      simp [hv] at hpage
  have hnamed := fun w (hw : w ∈ st.waits) => h.isNamed hw
  cases st with
  | openPage p => rfl
  | comment _ => exact hwaits _ hnamed
  | perform _ => exact hwaits _ hnamed
  | answerDialog _ _ _ => exact hwaits _ hnamed
  | performWaiting _ _ _ => exact hwaits _ hnamed
  | wait _ _ => exact hwaits _ hnamed

end

/-! ### Lines that read as their statement -/

/-- **Lines that read as a statement** of a program with a root page: what they call, declare and
define is what the statement does, but for the root page, through which new pages may be opened. -/
structure Renders (rename : String → String) (handler : String → ℕ → Option String)
    (root : Option String) (st : Statement) (lines : List String) : Prop where
  /-- They call the pages that the statement uses, and maybe the root page. -/
  called : ∀ page ∈ calledIn lines, page ∈ st.uses ∨ root = some page
  /-- They call all pages that the statement uses. -/
  uses : ∀ page ∈ st.uses, page ∈ calledIn lines
  /-- They declare the variables of the statement. -/
  declared : (declaredIn lines).Perm (st.vars rename)
  /-- They declare its pages outside of nested blocks. -/
  outside : ∀ page ∈ st.pages, page ∈ outsideIn 0 lines
  /-- They define the handler of its dialog. -/
  defined : definedIn lines = (st.dialog?.bind fun d => handler d.1 d.2).toList

/-- A program may have a root page, with the alias of the first page. -/
def IsRoot (root : Option String) : Prop :=
  root = none ∨ root = some rootAlias

/-- **Lines that declare the root page**, outside of nested blocks, and nothing else. -/
def IsHeader (margin : ℕ) (root : Option String) (lines : List String) : Prop :=
  LinesScoped margin [] lines ∧ outsideIn margin lines = root.toList ∧
    declaredIn lines = root.toList ∧ definedIn lines = []

instance (margin : ℕ) (root : Option String) (lines : List String) :
    Decidable (IsHeader margin root lines) :=
  inferInstanceAs (Decidable (_ ∧ _ ∧ _ ∧ _))

theorem isHeader_of_silent {margin : ℕ} {lines : List String}
    (h : ∀ line ∈ lines, (read line).IsSilent) : IsHeader margin none lines := by
  refine ⟨linesScoped_of_silent h, ?_, declaredIn_of_silent h, definedIn_of_silent h⟩
  refine List.eq_nil_iff_forall_not_mem.mpr fun page hpage => ?_
  have hdeclared := mem_declaredIn_of_mem_outsideIn hpage
  simp [declaredIn_of_silent h] at hdeclared

/-- A line that declares the root page, behind lines that do nothing. -/
theorem isHeader_concat {margin : ℕ} (depth : ℕ) {lines : List String} {line page : String}
    (h : ∀ line ∈ lines, (read line).IsSilent) (hline : read line = ⟨depth, none, [page], []⟩)
    (hdepth : depth ≤ margin) : IsHeader margin (some page) (lines ++ [line]) := by
  have hsilent : IsHeader margin none lines := isHeader_of_silent h
  obtain ⟨hscoped, houtside, hdeclared, hdefined⟩ := hsilent
  have hopens : LinesScoped margin ([] ++ outsideIn margin lines) [line] := by
    refine (linesScoped_iff_of_disjoint fun _ h => ?_).mpr fun _ h => ?_
    all_goals simp [calledIn, hline] at h
  refine ⟨linesScoped_append.mpr ⟨hscoped, hopens⟩, ?_, ?_, ?_⟩
  · simp [houtside, outsideIn_cons, hline, hdepth]
  · simp [hdeclared, hline]
  · simp [hdefined, hline]

/-- **A language whose lines read as their plan.** Downloads may be renamed, and dialog handlers may
be functions with names of their own. -/
structure Language.Reads (l : Language) (rename : String → String)
    (handler : String → ℕ → Option String) : Prop where
  /-- Actions are indented by spaces. -/
  indent : ∀ c ∈ l.bodyIndent.toList, c = ' '
  /-- The lines in front of the actions declare the root page. -/
  header : ∀ root, IsRoot root → IsHeader l.bodyIndent.length root (l.header root)
  /-- The lines behind the actions do nothing to pages. -/
  footer : ∀ line ∈ l.footer, (read line).IsSilent
  /-- Nor does the line that replaces the actions. -/
  emptyBody : ∀ line ∈ l.emptyBody, (read line).IsSilent
  /-- Downloads keep the form of their names. -/
  named : ∀ name, isOver "download" name = true → isOver "download" (rename name) = true
  /-- Different downloads keep different names. -/
  renamed : ∀ m n, rename (numbered "download" m) = rename (numbered "download" n) → m = n
  /-- Handlers with different numbers have different names. -/
  handlers : ∀ page other m n name, isPageName page = true → isPageName other = true →
    handler page m = some name → handler other n = some name → m = n
  /-- Lines read as their statement. -/
  statement : ∀ root, IsRoot root → ∀ st : Statement, st.IsPlain →
    Renders rename handler root st (l.statement root st)

namespace Language.Reads

variable {l : Language} {rename : String → String} {handler : String → ℕ → Option String}
  {root : Option String} {actions : List Action} {aliases : AliasTable}

/-- The lines of a fresh statement are scoped if the pages that it uses are known, and the root
page is. -/
theorem linesScoped_statement (h : l.Reads rename handler) (hroot : IsRoot root) {st : Statement}
    (hplain : st.IsPlain) (hfresh : st.IsFresh) {margin : ℕ} {known : List String}
    (hknown : ∀ page ∈ root, page ∈ known) :
    LinesScoped margin known (Program.indent l.bodyIndent (l.statement root st)) ↔
      ∀ page ∈ st.uses, page ∈ known := by
  have hst := h.statement root hroot st hplain
  -- a page that the lines call is used by the statement, or is the root page: it is not declared
  have hdisjoint : ∀ page ∈ calledIn (l.statement root st),
      page ∉ declaredIn (l.statement root st) := by
    intro page hpage hdeclared
    have hmem := hst.declared.mem_iff.mp hdeclared
    rcases hst.called page hpage with huse | heq
    · have hpages := (hplain.mem_vars_iff h.named (hplain.uses huse)).mp hmem
      exact (hfresh page hpages).2 huse
    · have halias : page = rootAlias := by
        rcases hroot with rfl | rfl
        · cases heq
        · exact (Option.some.inj heq).symm
      have hname : isPageName page = true := by
        rw [halias]
        decide
      have hpages := (hplain.mem_vars_iff h.named hname).mp hmem
      exact (hfresh page hpages).1 halias
  rw [linesScoped_iff_of_disjoint, calledIn_indent h.indent]
  · constructor
    · intro hcalled page hpage
      exact hcalled page (hst.uses page hpage)
    · intro huses page hpage
      rcases hst.called page hpage with huse | heq
      · exact huses page huse
      · exact hknown page heq
  · rwa [calledIn_indent h.indent, declaredIn_indent h.indent]

/-- **The lines of statements are scoped if the statements are**, and the root page is known. -/
theorem linesScoped_iff (h : l.Reads rename handler) (hroot : IsRoot root) {sts : List Statement}
    (hplain : ∀ st ∈ sts, st.IsPlain) (hfresh : ∀ st ∈ sts, st.IsFresh) {known pages : List String}
    (hpages : ∀ page, isPageName page = true → (page ∈ known ↔ page ∈ pages))
    (hknown : ∀ page ∈ root, page ∈ known) :
    LinesScoped l.bodyIndent.length known
        (Program.indent l.bodyIndent (sts.flatMap (l.statement root))) ↔
      PlanScoped pages sts := by
  induction sts generalizing known pages with
  | nil => exact Iff.rfl
  | cons st rest ih =>
    have hst := hplain st List.mem_cons_self
    have hrenders := h.statement root hroot st hst
    have hsplit : Program.indent l.bodyIndent ((st :: rest).flatMap (l.statement root)) =
        Program.indent l.bodyIndent (l.statement root st) ++
          Program.indent l.bodyIndent (rest.flatMap (l.statement root)) := by
      simp [Program.indent]
    -- the pages that are known afterwards are those that the statement declares, and the others
    have hlater : ∀ page, isPageName page = true →
        (page ∈ known ++ outsideIn 0 (l.statement root st) ↔ page ∈ pages ++ st.pages) := by
      intro page hpage
      rw [List.mem_append, List.mem_append, hpages page hpage]
      refine or_congr_right ⟨fun houtside => ?_, hrenders.outside page⟩
      have hvars := hrenders.declared.mem_iff.mp (mem_declaredIn_of_mem_outsideIn houtside)
      exact (hst.mem_vars_iff h.named hpage).mp hvars
    rw [hsplit, linesScoped_append, outsideIn_indent h.indent,
      h.linesScoped_statement hroot hst (hfresh st List.mem_cons_self) hknown,
      PlanScoped, ScopedFrom, ← PlanScoped,
      ih (fun st hst => hplain st (List.mem_cons_of_mem _ hst))
        (fun st hst => hfresh st (List.mem_cons_of_mem _ hst)) hlater
        (fun page hpage => List.mem_append_left _ (hknown page hpage))]
    refine and_congr_left fun _ => forall₂_congr fun page hpage => hpages page ?_
    exact hst.uses hpage

/-- The lines of the actions are those of their statements, or a line that does nothing in the place
of none. -/
theorem body_eq (h : l.Reads rename handler) (actions : List Action) (aliases : AliasTable) :
    l.body actions aliases = (plan aliases.root actions).flatMap (l.statement aliases.root) ∨
      (plan aliases.root actions).flatMap (l.statement aliases.root) = [] ∧
        ∀ line ∈ l.body actions aliases, (read line).IsSilent := by
  rw [Language.body]
  split
  · next hnil =>
    refine Or.inr ⟨hnil, fun line hline => h.emptyBody line ?_⟩
    exact Option.mem_toList.mp hline
  · exact Or.inl rfl

/-- Indented lines are silent if they are. -/
theorem silent_indent (h : l.Reads rename handler) {lines : List String}
    (hlines : ∀ line ∈ lines, (read line).IsSilent) :
    ∀ line ∈ Program.indent l.bodyIndent lines, (read line).IsSilent := by
  intro line hline
  obtain ⟨inner, hinner, rfl⟩ := List.mem_map.mp hline
  rw [apply_ite read, read_indent h.indent]
  exact hlines inner hinner

/-- **A program is properly scoped if its plan is**, in each language. -/
theorem properlyScoped_iff (h : l.Reads rename handler) (hroot : IsRoot aliases.root)
    (hplain : ∀ st ∈ plan aliases.root actions, st.IsPlain)
    (hfresh : ∀ st ∈ plan aliases.root actions, st.IsFresh) :
    ProperlyScoped l.bodyIndent.length (l.lines actions aliases) ↔
      PlanScoped aliases.root.toList (plan aliases.root actions) := by
  obtain ⟨hheader, houtside, -, -⟩ := h.header _ hroot
  have hfooter : ∀ known, LinesScoped l.bodyIndent.length known l.footer := fun known =>
    linesScoped_of_silent h.footer
  have hroots : ∀ page ∈ aliases.root, page ∈ aliases.root.toList := fun page hpage =>
    Option.mem_toList.mpr hpage
  -- the header makes the root page known, and the footer calls nothing
  have hbody := h.linesScoped_iff hroot hplain hfresh (fun page _ => Iff.rfl) hroots
  rw [Program.properlyScoped_iff, Language.lines, linesScoped_append, linesScoped_append,
    and_iff_left (hfooter _), and_iff_right hheader, List.nil_append, houtside]
  rcases h.body_eq actions aliases with heq | ⟨hnil, hsilent⟩
  · rw [heq, hbody]
  · rw [hnil] at hbody
    refine (iff_of_true ?_ ?_).trans hbody
    · exact linesScoped_of_silent (h.silent_indent hsilent)
    · trivial

/-- **A program declares nothing twice if its plan does not.** -/
theorem declaredOnce_iff (h : l.Reads rename handler) (hroot : IsRoot aliases.root)
    (hplain : ∀ st ∈ plan aliases.root actions, st.IsPlain) :
    DeclaredOnce (l.lines actions aliases) ↔
      (aliases.root.toList ++ (plan aliases.root actions).flatMap (·.vars rename)).Nodup ∧
        ((plan aliases.root actions).filterMap fun st =>
          st.dialog?.bind fun d => handler d.1 d.2).Nodup := by
  obtain ⟨-, -, hheader, hfunctions⟩ := h.header _ hroot
  -- a line in the place of no statements declares and defines as little as they do
  have hbody : declaredIn (l.body actions aliases) =
        declaredIn ((plan aliases.root actions).flatMap (l.statement aliases.root)) ∧
      definedIn (l.body actions aliases) =
        definedIn ((plan aliases.root actions).flatMap (l.statement aliases.root)) := by
    rcases h.body_eq actions aliases with heq | ⟨hnil, hsilent⟩
    · rw [heq]
      exact ⟨rfl, rfl⟩
    · rw [hnil, declaredIn_of_silent hsilent, definedIn_of_silent hsilent]
      exact ⟨rfl, rfl⟩
  have hdeclared : (declaredIn (l.lines actions aliases)).Perm
      (aliases.root.toList ++ (plan aliases.root actions).flatMap (·.vars rename)) := by
    rw [Language.lines, declaredIn_append, declaredIn_append, declaredIn_indent h.indent,
      declaredIn_of_silent h.footer, List.append_nil, hheader, hbody.1, declaredIn,
      List.flatMap_assoc]
    refine List.Perm.append_left _ (List.Perm.flatMap_left _ fun st hst => ?_)
    exact (h.statement _ hroot st (hplain st hst)).declared
  have hdefined : definedIn (l.lines actions aliases) =
      (plan aliases.root actions).filterMap fun st =>
        st.dialog?.bind fun d => handler d.1 d.2 := by
    rw [Language.lines, definedIn_append, definedIn_append, definedIn_indent h.indent,
      definedIn_of_silent h.footer, List.append_nil, hfunctions, hbody.2, List.nil_append,
      definedIn, List.flatMap_assoc, List.filterMap_eq_flatMap_toList]
    refine List.flatMap_congr fun st hst => ?_
    exact (h.statement _ hroot st (hplain st hst)).defined
  rw [← hdeclared.nodup_iff, ← hdefined]
  exact Iff.rfl

end Language.Reads

end Scribe.Program
