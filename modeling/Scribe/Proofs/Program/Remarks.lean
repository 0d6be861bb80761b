import Scribe.Proofs.Program.Brackets
import Scribe.Proofs.Text.Lines

/-!
# Remarks in programs

**An action of a kind that nothing is known about** adds remarks to a program, unless it showed a
dialog: one for each signal that did not occur, and one that names its kind. The name is put into
its remark as it stands. What this comes to is said line by line, as the language of the program
divides the text (`Scribe.Program.Catalog.lines_of_unknown`): whatever the name holds on its first
line is part of the remark, and the lines behind that one, if there are any, stand in the program by
themselves.
-/

namespace Scribe.Program

open Text

/-! ### Plans around an action -/

/-- The plan of an action and those behind it goes on where the plan of those before it ends. -/
theorem exists_planFrom_append (root : Option String) (handlers : ℕ) (before : List Action) :
    ∃ front n, ∀ rest, planFrom root handlers (before ++ rest) = front ++ planFrom root n rest := by
  induction before generalizing handlers with
  | nil => exact ⟨[], handlers, fun rest => rfl⟩
  | cons a before ih =>
    obtain ⟨front, n, hfront⟩ := ih (statementsOf root handlers a).2
    refine ⟨(statementsOf root handlers a).1 ++ front, n, fun rest => ?_⟩
    rw [List.cons_append, planFrom_cons, hfront, List.append_assoc]

/-- **What is left in a program of an action** of an unknown kind that showed no dialog. -/
def remarksOf (a : Action) (name : String) : List Statement :=
  missingComments a ++ [.comment s!"unsupported action: {name}"]

section

variable {a : Action} {name : String}

theorem statementsOf_unknown (hkind : a.kind = .other name) (hdialog : a.signal? .dialog = none)
    (root : Option String) (handlers : ℕ) :
    statementsOf root handlers a = (remarksOf a name, handlers) := by
  have hnone : operation? a = none := by
    rw [operation?, hkind]
    cases a.selector <;> simp [elementOperation?, hkind]
  simp only [statementsOf, performStatements, hkind, hdialog, hnone]
  rfl

/-- **The plan of the other actions**, with the remarks in their place. -/
theorem plan_unknown (hkind : a.kind = .other name) (hdialog : a.signal? .dialog = none)
    (root : Option String) (before after : List Action) :
    ∃ front back, plan root (before ++ after) = front ++ back ∧
      plan root (before ++ a :: after) = front ++ remarksOf a name ++ back := by
  obtain ⟨front, n, hfront⟩ := exists_planFrom_append root 0 before
  refine ⟨front, planFrom root n after, hfront after, ?_⟩
  rw [plan, hfront, planFrom_cons, statementsOf_unknown hkind hdialog, List.append_assoc]

end

/-! ### Remarks as they are written -/

/-- The text of statements in the body of a program. -/
def Language.textIn (l : Language) (root : Option String) (sts : List Statement) : List Char :=
  textOf (indent l.bodyIndent (sts.flatMap (l.statement root)))

theorem Language.textIn_append (l : Language) (root : Option String) (sts more : List Statement) :
    l.textIn root (sts ++ more) = l.textIn root sts ++ l.textIn root more := by
  rw [textIn, textIn, textIn, List.flatMap_append, indent, List.map_append, textOf,
    List.flatMap_append]
  rfl

/-- **The text of a program** whose statements come to some lines: the statements stand between the
header and the footer. -/
theorem Language.HasBrackets.toList_render_of_ne_nil {l : Language} {d : Dialect}
    (h : l.HasBrackets d) {actions : List Action} {aliases : AliasTable}
    (hne : (plan aliases.root actions).flatMap (l.statement aliases.root) ≠ []) :
    (l.render actions aliases).toList = textOf (l.header aliases.root) ++
      l.textIn aliases.root (plan aliases.root actions) ++ textOf l.footer := by
  have hbody : l.body actions aliases =
      (plan aliases.root actions).flatMap (l.statement aliases.root) := by
    rw [body]
    split
    · next hnil => exact absurd hnil hne
    · rfl
  rw [h.toList_render, lines, hbody, textOf, List.flatMap_append, List.flatMap_append]
  rfl

/-- **A language writes remarks** in a dialect: a comment is its mark, a space and a text, and it is
indented by spaces. -/
structure Language.WritesRemarks (l : Language) (d : Dialect) : Prop where
  comment : ∀ root text,
    l.statement root (.comment text) = [String.ofList (d.commentMark ++ [' ']) ++ text]
  bodyIndent : ∃ n, l.bodyIndent = String.ofList (List.replicate n ' ')

/-- A remark with its indent. -/
def Language.remark (l : Language) (d : Dialect) (text : List Char) : List Char :=
  l.bodyIndent.toList ++ (d.commentMark ++ ' ' :: text)

namespace Language.WritesRemarks

variable {l : Language} {d : Dialect} {root : Option String}

theorem eq_space_of_mem (h : l.WritesRemarks d) {c : Char} (hc : c ∈ l.bodyIndent.toList) :
    c = ' ' := by
  obtain ⟨n, hindent⟩ := h.bodyIndent
  rw [hindent, String.toList_ofList] at hc
  exact List.eq_of_mem_replicate hc

theorem textIn_comment (h : l.WritesRemarks d) (text : String) (sts : List Statement) :
    l.textIn root (.comment text :: sts) = l.remark d text.toList ++ '\n' :: l.textIn root sts := by
  have hsome : (String.ofList (d.commentMark ++ [' ']) ++ text).isEmpty = false := by
    rw [← Bool.not_eq_true, String.isEmpty_iff, ← String.toList_inj]
    simp
  rw [textIn, List.flatMap_cons, h.comment, List.singleton_append, indent, List.map_cons, hsome,
    textOf_cons, if_neg Bool.false_ne_true]
  simp [remark, textIn, indent]

/-- **A remark is a comment**, as far as its line goes. -/
theorem isComment_remark (h : l.WritesRemarks d) (text : List Char) :
    d.isComment (l.remark d text) = true := by
  have hmargin : ∀ c ∈ l.bodyIndent.toList, d.isMargin c = true := by
    intro c hc
    rw [h.eq_space_of_mem hc]
    cases d <;> decide
  have hmark : (d.commentMark ++ ' ' :: text).dropWhile d.isMargin =
      d.commentMark ++ ' ' :: text := by
    cases d <;> rfl
  rw [Dialect.isComment, remark, List.dropWhile_append_of_pos hmargin, hmark,
    List.isPrefixOf_iff_prefix]
  exact List.prefix_append _ _

/-- A remark is on one line if its text is plain. -/
theorem remark_plain (h : l.WritesRemarks d) {text : String} (htext : isPlainText text = true) :
    (∀ c ∈ l.remark d text.toList, c ∉ d.lineEnds) ∧ '\\' ∉ l.remark d text.toList ∧
      l.remark d text.toList ≠ [] := by
  have hmark :
      (d.commentMark ++ [' ']).all (fun c => !d.lineEnds.contains c && c != '\\') = true := by
    cases d <;> rfl
  have hmark : ∀ c ∈ d.commentMark ++ [' '], c ∉ d.lineEnds ∧ c ≠ '\\' := fun c hc => by
    simpa using List.all_eq_true.mp hmark c hc
  have hall : ∀ c ∈ l.remark d text.toList, c ∉ d.lineEnds ∧ c ≠ '\\' := by
    intro c hc
    rw [remark, List.append_cons, List.mem_append, List.mem_append] at hc
    rcases hc with hc | hc | hc
    · exact h.eq_space_of_mem hc ▸ hmark ' ' (by simp)
    · exact hmark c hc
    · exact ne_of_isPlainText htext hc
  exact ⟨fun c hc => (hall c hc).1, fun hc => (hall _ hc).2 rfl, by simp [remark]⟩

/-- The remarks on signals that did not occur stand on lines of their own. -/
theorem lines?_missingComments (h : l.WritesRemarks d) (root : Option String)
    (kinds : List SignalKind) :
    ∃ remarks, (∀ line ∈ remarks, d.isComment line = true) ∧ ∀ sts,
      d.lines? (l.textIn root (kinds.map missingComment ++ sts)) =
        (d.lines? (l.textIn root sts)).map (remarks ++ ·) := by
  induction kinds with
  | nil => exact ⟨[], by simp, fun sts => by simp⟩
  | cons k kinds ih =>
    obtain ⟨remarks, hcomments, hlines⟩ := ih
    obtain ⟨text, hcomment, htext⟩ : ∃ text, missingComment k = .comment text ∧ isPlainText text :=
      ⟨_, rfl, hasNames_missingComment k⟩
    obtain ⟨hends, hplain, hne⟩ := h.remark_plain htext
    refine ⟨l.remark d text.toList :: remarks,
      List.forall_mem_cons.mpr ⟨h.isComment_remark _, hcomments⟩, fun sts => ?_⟩
    rw [List.map_cons, List.cons_append, hcomment, h.textIn_comment,
      Dialect.lines?_append_line hends hplain hne, hlines, Option.map_map]
    rfl

/-- **The lines of the remarks on an action**: they are comments, and the name of its kind goes on
behind them with whatever it has beyond its first line. -/
theorem lines?_remarksOf (h : l.WritesRemarks d) (root : Option String) (a : Action)
    (name : String) :
    (d.lines? (name.toList ++ ['\n']) = none → d.lines? (l.textIn root (remarksOf a name)) = none) ∧
      ∀ first more, d.lines? (name.toList ++ ['\n']) = some (first :: more) →
        ∃ remarks, (∀ line ∈ remarks, d.isComment line = true) ∧
          d.lines? (l.textIn root (remarksOf a name)) = some (remarks ++ more) := by
  obtain ⟨remarks, hcomments, hlines⟩ := h.lines?_missingComments root a.incompleteSignals
  let words := "unsupported action: "
  obtain ⟨hends, hplain, hne⟩ :=
    h.remark_plain (isPlainText_given rfl rfl : isPlainText words = true)
  have htext : l.textIn root [.comment s!"unsupported action: {name}"] =
      l.remark d words.toList ++ (name.toList ++ ['\n']) := by
    rw [h.textIn_comment, remark, remark]
    change _ ++ (_ ++ ' ' :: (words ++ name).toList) ++ ['\n'] = _
    simp only [String.toList_append, List.append_assoc, List.cons_append]
  have hunknown : d.lines? (l.textIn root (remarksOf a name)) =
      ((d.lines? (name.toList ++ ['\n'])).map (putBefore (l.remark d words.toList))).map
        (remarks ++ ·) := by
    rw [remarksOf, missingComments, hlines, htext, Dialect.lines?_append_plain hends hplain hne]
  refine ⟨fun hnone => by rw [hunknown, hnone]; rfl, fun first more hsome => ?_⟩
  refine ⟨remarks ++ [l.remark d words.toList ++ first], fun line hline => ?_, ?_⟩
  · rcases List.mem_append.mp hline with hline | hline
    · exact hcomments line hline
    · rw [List.mem_singleton.mp hline, remark, List.append_assoc, List.append_assoc,
        List.cons_append]
      exact h.isComment_remark _
  · rw [hunknown, hsome, List.append_assoc]
    rfl

end Language.WritesRemarks

namespace Catalog

theorem writesRemarks_of_mem_dialects {l : Language} {d : Dialect} (h : (l, d) ∈ dialects) :
    l.WritesRemarks d := by
  simp only [dialects, List.mem_cons, List.not_mem_nil, or_false, Prod.mk.injEq] at h
  rcases h with ⟨rfl, rfl⟩ | ⟨rfl, rfl⟩ | ⟨rfl, rfl⟩ | ⟨rfl, rfl⟩ | ⟨rfl, rfl⟩ | ⟨rfl, rfl⟩ |
    ⟨rfl, rfl⟩
  · exact ⟨fun root text => rfl, 2, rfl⟩
  · exact ⟨fun root text => rfl, 2, rfl⟩
  · exact ⟨fun root text => rfl, 4, rfl⟩
  · exact ⟨fun root text => rfl, 4, rfl⟩
  · exact ⟨fun root text => rfl, 4, rfl⟩
  · exact ⟨fun root text => rfl, 6, rfl⟩
  · exact ⟨fun root text => rfl, 8, rfl⟩

/-- **An action of an unknown kind** adds remarks to the program of the other actions, in its place.
What they come to is told by the lines of the name of the kind: the first one belongs to the last
remark, and the others, if there are any, stand behind it as they are. -/
theorem lines_of_unknown {l : Language} {d : Dialect} (hl : (l, d) ∈ dialects) {a : Action}
    {name : String} (hkind : a.kind = .other name) (hdialog : a.signal? .dialog = none)
    (before after : List Action) (aliases : AliasTable) (handlers : ℕ) :
    (∃ front back, plan aliases.root (before ++ after) = front ++ back ∧
      (l.render (before ++ a :: after) aliases).toList =
        textOf (l.header aliases.root) ++ l.textIn aliases.root front ++
          l.textIn aliases.root (statementsOf aliases.root handlers a).1 ++
          l.textIn aliases.root back ++ textOf l.footer) ∧
    (d.lines? (name.toList ++ ['\n']) = none →
      d.lines? (l.textIn aliases.root (statementsOf aliases.root handlers a).1) = none) ∧
    ∀ first more, d.lines? (name.toList ++ ['\n']) = some (first :: more) →
      ∃ remarks, (∀ line ∈ remarks, d.isComment line = true) ∧
        d.lines? (l.textIn aliases.root (statementsOf aliases.root handlers a).1) =
          some (remarks ++ more) := by
  have hbrackets := hasBrackets_of_mem_dialects hl
  have hremarks := writesRemarks_of_mem_dialects hl
  rw [statementsOf_unknown hkind hdialog]
  refine ⟨?_, hremarks.lines?_remarksOf aliases.root a name⟩
  obtain ⟨front, back, hrest, hplan⟩ := plan_unknown hkind hdialog aliases.root before after
  refine ⟨front, back, hrest, ?_⟩
  have hne :
      (plan aliases.root (before ++ a :: after)).flatMap (l.statement aliases.root) ≠ [] := by
    simp [hplan, remarksOf, hremarks.comment]
  rw [hbrackets.toList_render_of_ne_nil hne, hplan, l.textIn_append, l.textIn_append]
  simp only [List.append_assoc]

/-- In a class, an escape in the name of a kind ends the remark too. -/
theorem lines_of_unknown_escape :
    let a : Action := { kind := .other "hover\\u000aSystem.exit(1);", page := "page" }
    (Java.program, Dialect.java) ∈ dialects ∧ a.signal? .dialog = none ∧
      ∃ remarks, (∀ line ∈ remarks, Dialect.java.isComment line = true) ∧
        Dialect.java.lines? (Java.program.textIn none (statementsOf none 0 a).1) =
          some (remarks ++ ["System.exit(1);".toList]) := by
  intro a
  have hlanguage : (Java.program, Dialect.java) ∈ dialects := by simp [dialects]
  have hlines : Dialect.java.lines? ("hover\\u000aSystem.exit(1);".toList ++ ['\n']) =
      some ["hover".toList, "System.exit(1);".toList] := by
    cbv
  exact ⟨hlanguage, rfl, (lines_of_unknown hlanguage (a := a) rfl rfl [] [] {} 0).2.2 _ _ hlines⟩

/-- **A line feed in the name of a kind ends the remark** in each language, and what stands behind
it is no comment. -/
theorem lines_of_split_kind :
    let a : Action := { kind := .ofName "hover\nprocess.exit(1)", page := "page" }
    a.kind.isKnown = false ∧ a.signal? .dialog = none ∧
      ∀ l d, (l, d) ∈ dialects → ∃ lines,
        d.lines? (l.textIn none (statementsOf none 0 a).1) = some lines ∧
          ∃ line ∈ lines, d.isComment line = false := by
  intro a
  have hkind : a.kind = .other "hover\nprocess.exit(1)" := by decide
  refine ⟨by rw [hkind]; rfl, rfl, fun l d hl => ?_⟩
  have hlines : d.lines? ("hover\nprocess.exit(1)".toList ++ ['\n']) =
      some ["hover".toList, "process.exit(1)".toList] := by
    cases d <;> cbv
  obtain ⟨remarks, -, hown⟩ :=
    ((writesRemarks_of_mem_dialects hl).lines?_remarksOf none a _).2 _ _ hlines
  rw [statementsOf_unknown hkind rfl]
  refine ⟨_, hown, _, List.mem_append_right _ List.mem_cons_self, ?_⟩
  cases d <;> cbv

end Catalog

end Scribe.Program
