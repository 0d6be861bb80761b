import Scribe.Program.Java
import Scribe.Proofs.Program.Calls

/-!
# Reading Java programs

The lines of classes read as their plans (`Scribe.Program.Java.program_reads`). Each wait opens a
block of its own, whose first line declares the variable of the wait.
-/

namespace Scribe.Program.Java

/-! ### Operations -/

theorem isCall_locator (t : Target) : IsCall t.page [locator t] :=
  isCall_intercalate (by simp)

/-- A click is a call, whatever its options are: they are calls on what it has made of them. -/
theorem isCall_click (t : Target) (button : String) (count : ℤ) (modifiers : List String) :
    IsCall t.page (click t button count modifiers) := by
  have hmargin : ∀ c ∈ "  ".toList, c = ' ' := by decide
  have hbutton : (read s!".setButton(MouseButton.{Text.uppered button})").IsSilent := by
    have hset : IsPointed ".setButton(MouseButton." := by decide
    exact ((hset.append _).append _).isSilent
  have hmodifier : ∀ held : String, (read s!".setModifiers(Arrays.asList({held}))").IsSilent := by
    intro held
    have hset : IsPointed ".setModifiers(Arrays.asList(" := by decide
    exact ((hset.append _).append _).isSilent
  have hcount : (read s!".setClickCount({count})").IsSilent := by
    have hset : IsPointed ".setClickCount(" := by decide
    exact ((hset.append _).append _).isSilent
  have hcall := (isCall_locator t).append "."
  have hbare : ∀ method : String, IsCall t.page [s!"{locator t}.{method}()"] :=
    fun method => (hcall.append method).append "()"
  have hoptions : ∀ method options : String,
      IsCall t.page [s!"{locator t}.{method}(new Locator.{options}()"] :=
    fun method options =>
      (((hcall.append method).append "(new Locator.").append options).append "()"
  have hsetters := forall_options (P := fun setter => (read setter).IsSilent) (button == "left")
    modifiers.isEmpty (count > 2) hbutton
    (hmodifier (commaList (modifiers.map fun m => s!"KeyboardModifier.{Text.uppered m}")))
    fun _ => hcount
  rw [click]
  split
  · exact hbare _
  · refine ((hoptions _ _).cons fun line hline => ?_).endWith (by decide)
    obtain ⟨setter, hsetter, rfl⟩ := List.mem_map.mp hline
    exact (hsetters setter hsetter).indent hmargin

theorem isCall_operation (op : Operation) : IsCall op.page (operation op) := by
  cases op with
  | close page => exact isCall_singleton (by decide)
  | navigate page url =>
    have hnavigate : IsPointed ".navigate(" := by decide
    exact ((isCall_singleton hnavigate).append _).append _
  | click t button count modifiers => exact isCall_click t button count modifiers
  | fill t text => exact (((isCall_locator t).append ".fill(").append _).append _
  | check t on => exact (isCall_locator t).append _
  | press t key => exact (((isCall_locator t).append ".press(").append _).append _
  | setFiles t files => exact (((isCall_locator t).append ".setInputFiles(").append _).append _
  | select t options => exact (((isCall_locator t).append ".selectOption(").append _).append _

/-! ### Statements -/

/-- A line that declares the variable of a wait, which the page takes part in. -/
theorem awaits_declaration {page rest : String} {w : Wait} {lines : List String}
    (hpage : isPageName page = true) (hw : w.IsNamed) (hrest : IsPointed rest)
    (hlines : ∀ line ∈ lines, (read line).IsSilent) :
    Awaits page [w.var id] ((declaration w ++ " = " ++ page ++ rest) :: lines) := by
  have hvar : isVariable (w.var id) = true := hw.isVariable fun _ h => h
  cases w with
  | popup v =>
    exact awaits_declare (by decide) (by decide) (by decide)
      (written_singleton hvar) (by decide) hpage hrest hlines
  | download v =>
    exact awaits_declare (by decide) (by decide) (by decide)
      (written_singleton hvar) (by decide) hpage hrest hlines

/-- **Nested blocks** declare the variables of their waits. -/
theorem awaits_nest {page : String} (hpage : isPageName page = true) {waits : List Wait}
    (hnamed : ∀ w ∈ waits, w.IsNamed) {inner : List String} (hinner : Awaits page [] inner) :
    Awaits page (waits.map (Wait.var id)) (nest page waits inner) := by
  have hmargin : ∀ c ∈ "  ".toList, c = ' ' := by decide
  have hlast : ∀ line ∈ ["\x7d);"], (read line).IsSilent := by decide
  induction waits with
  | nil => exact hinner
  | cons w waits ih =>
    have hrest : IsPointed ("." ++ waitMethod w ++ "(() -> \x7b") :=
      IsPointed.append (IsPointed.append (by decide) _) _
    have houter : Awaits page [w.var id]
        ([declaration w ++ " = " ++ page ++ ("." ++ waitMethod w ++ "(() -> \x7b")] ++
          ["\x7d);"]) :=
      awaits_declaration hpage (hnamed w List.mem_cons_self) hrest hlast
    have hline : s!"{declaration w} = {page}.{waitMethod w}(() -> \x7b" =
        declaration w ++ " = " ++ page ++ ("." ++ waitMethod w ++ "(() -> \x7b") := by
      simp only [String.append_assoc]
      rfl
    have hwaits := ih fun w hw => hnamed w (List.mem_cons_of_mem _ hw)
    rw [nest, hline]
    exact houter.nest hwaits hmargin

/-- The handler of a dialog is a call on its page. -/
theorem isCall_answerDialog (page : String) (dismiss : Bool) (number : ℕ) :
    IsCall page (statement (.answerDialog page dismiss number)) := by
  have honce : IsPointed ".onceDialog(dialog -> \x7b" := by decide
  refine (isCall_singleton honce).cons ?_
  cases dismiss <;> decide

/-- **Lines read as their statement.** -/
theorem renders_statement {root : Option String} {st : Statement} (hst : st.IsPlain) :
    Renders id (fun _ _ => none) root st (statement st) := by
  cases st with
  | comment text => exact renders_comment (by decide) (by decide) (by decide) hst
  | openPage page =>
    have hline : statement (.openPage page) =
        ["Page " ++ page ++ " = " ++ "context" ++ ".newPage();"] := by
      simp only [statement, String.append_assoc]
      rfl
    rw [hline]
    exact renders_openPage (by decide) (by decide) (by decide) hst (by decide) isContext_context
      (by decide)
  | perform op =>
    exact (((isCall_operation op).endWith (by decide)).awaits_self hst.1).perform
  | answerDialog page dismiss number =>
    exact ((isCall_answerDialog page dismiss number).awaits_self hst).renders rfl rfl
      (fun p hp => by cases hp) rfl
  | performWaiting page waits op =>
    obtain ⟨⟨hpage, rfl, -⟩, -, hnamed, htail⟩ := hst
    have hinner := ((isCall_operation op).endWith (by decide : isEnd ";" = true)).awaits_self hpage
    exact (awaits_nest hpage hnamed hinner).performWaiting htail
  | wait page w =>
    have hrest : IsPointed ("." ++ waitMethod w ++ "(() -> \x7b\x7d);") :=
      IsPointed.append (IsPointed.append (by decide) _) _
    have hline : statement (.wait page w) =
        [declaration w ++ " = " ++ page ++ ("." ++ waitMethod w ++ "(() -> \x7b\x7d);")] := by
      simp only [statement, String.append_assoc]
      rfl
    rw [hline]
    exact (awaits_declaration hst.1 hst.2 hrest (by simp)).wait

/-- The lines in front of the actions do nothing to pages, unless there is a root page. -/
theorem silent_header : ∀ line ∈ program.header none, (read line).IsSilent := by
  repeat refine List.forall_mem_cons.mpr ⟨silent_given rfl (by decide +kernel), ?_⟩
  exact fun _ hline => nomatch hline

/-- **Classes read as their plans.** -/
theorem program_reads : program.Reads id fun _ _ => none where
  indent := by decide
  header := by
    rintro root (rfl | rfl)
    · exact isHeader_of_silent silent_header
    · exact isHeader_concat 6 silent_header (by decide +kernel) (by decide)
  footer := by decide
  emptyBody := by decide
  named _ h := h
  renamed _ _ h := numbered_inj h
  handlers _ _ _ _ _ _ _ h := by cases h
  statement _ _ _ hst := renders_statement hst

end Scribe.Program.Java
