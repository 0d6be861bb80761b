import Scribe.Program.CSharp
import Scribe.Proofs.Program.Calls

/-!
# Reading C# programs

The lines of classes read as their plans (`Scribe.Program.CSharp.program_reads`). Two things are
particular here: downloads are numbered from one on (`Scribe.Program.CSharp.downloadVariable`), and
the handler of a dialog is a function with a name (`Scribe.Program.CSharp.handler`), which two
handlers share only if they have the same number.
-/

namespace Scribe.Program.CSharp

/-! ### Downloads -/

/-- The variable of a download goes by the number at the end of its name. -/
theorem downloadVariable_eq {name : String} {digits : List Char}
    (hname : name.toList = "download".toList ++ digits) (hdigits : ∀ c ∈ digits, c.isDigit = true) :
    downloadVariable name = "download" ++ (Nat.ofDigitChars 10 digits 0 + 1).repr := by
  -- the number is read from the end of the name
  have hreverse : name.toList.reverse = digits.reverse ++ "download".toList.reverse := by
    rw [hname, List.reverse_append]
  have hdigits' : ∀ c ∈ digits.reverse, c.isDigit = true := fun c hc =>
    hdigits c (List.mem_reverse.mp hc)
  have htake : name.toList.reverse.takeWhile Char.isDigit = digits.reverse := by
    rw [hreverse, List.takeWhile_append_of_pos hdigits']
    exact List.append_nil _
  have hdrop : name.toList.reverse.dropWhile Char.isDigit = "download".toList.reverse := by
    rw [hreverse, List.dropWhile_append_of_pos hdigits']
    rfl
  have hvalue : Text.ofDigits 10 (digits.map fun c => c.toNat - 48) =
      Nat.ofDigitChars 10 digits 0 := by
    rw [Text.ofDigits, List.foldl_map]
    rfl
  rw [← String.toList_inj, downloadVariable]
  simp only [htake, hdrop, List.reverse_reverse, hvalue, String.toList_ofList, String.toList_append,
    Nat.toList_repr, Text.natText]

theorem isOver_downloadVariable {name : String} (h : isOver "download" name = true) :
    isOver "download" (downloadVariable name) = true := by
  obtain ⟨digits, hname, hdigits⟩ := isOver_iff.mp h
  rw [downloadVariable_eq hname hdigits, isOver_iff]
  refine ⟨_, String.toList_append, fun c hc => ?_⟩
  rw [Nat.toList_repr] at hc
  exact Nat.isDigit_of_mem_toDigits (by decide) (by decide) hc

/-- **Downloads are numbered from one on.** -/
theorem downloadVariable_numbered (n : ℕ) :
    downloadVariable (numbered "download" n) = numbered "download" (n + 1) := by
  cases n with
  | zero =>
    have hname : (numbered "download" 0).toList = "download".toList ++ [] := rfl
    rw [downloadVariable_eq hname (by simp), numbered_succ]
    rfl
  | succ n =>
    have hname : (numbered "download" (n + 1)).toList =
        "download".toList ++ Nat.toDigits 10 (n + 1) := by
      rw [numbered_succ, String.toList_append, Nat.toList_repr]
    rw [downloadVariable_eq hname fun c hc =>
      Nat.isDigit_of_mem_toDigits (by decide) (by decide) hc, Nat.ofDigitChars_ten_toDigits]
    rfl

/-! ### Dialog handlers -/

/-- **The name of a dialog handler.** -/
def handler (page : String) (number : ℕ) : String :=
  s!"{page}_Dialog{number}_EventHandler"

theorem toList_handler (page : String) (number : ℕ) :
    (handler page number).toList =
      page.toList ++ '_' :: ("Dialog".toList ++
        (Nat.toDigits 10 number ++ '_' :: "EventHandler".toList)) := by
  have hparts : handler page number =
      page ++ "_Dialog" ++ number.repr ++ "_EventHandler" := rfl
  rw [hparts]
  simp [String.toList_append, Nat.toList_repr]

/-- Two texts that agree up to the first of a character agree behind it. -/
theorem append_cons_inj {c : Char} {first second rest more : List Char}
    (hfirst : ∀ d ∈ first, d ≠ c)
    (hsecond : ∀ d ∈ second, d ≠ c) (h : first ++ c :: rest = second ++ c :: more) :
    first = second ∧ rest = more := by
  have htake := congrArg (List.takeWhile (· != c)) h
  rw [List.takeWhile_append_of_pos fun d hd => by simpa using hfirst d hd,
    List.takeWhile_append_of_pos fun d hd => by simpa using hsecond d hd] at htake
  have heq : first = second := by simpa using htake
  subst heq
  exact ⟨rfl, (List.cons.inj (List.append_cancel_left h)).2⟩

/-- **Handlers with different numbers have different names.** -/
theorem handler_inj {page other : String} {m n : ℕ} (hpage : isPageName page = true)
    (hother : isPageName other = true) (h : handler page m = handler other n) : m = n := by
  have hlist := congrArg String.toList h
  rw [toList_handler, toList_handler] at hlist
  have hbehind := (append_cons_inj (ne_underscore_of_isPageName hpage)
    (ne_underscore_of_isPageName hother) hlist).2
  have hdigits : ∀ k : ℕ, ∀ c ∈ Nat.toDigits 10 k, c ≠ '_' := fun k c hc =>
    ne_underscore_of_isDigit (Nat.isDigit_of_mem_toDigits (by decide) (by decide) hc)
  -- the numbers end at the second underscore, as the pages do at the first
  have hnumber := (append_cons_inj (hdigits m) (hdigits n) (List.append_cancel_left hbehind)).1
  rw [← Nat.toList_repr, ← Nat.toList_repr] at hnumber
  exact repr_inj (String.toList_inj.mp hnumber)

theorem isName_handler {page : String} (hpage : isPageName page = true) (number : ℕ) :
    IsName (handler page number).toList := by
  have hname := isName_of_isPageName hpage
  rw [toList_handler]
  refine ⟨fun c hc => ?_, by simp⟩
  simp only [List.mem_append, List.mem_cons] at hc
  rcases hc with hc | rfl | hc | hc | rfl | hc
  · exact hname.chars c hc
  · decide
  · revert c
    decide
  · exact isNameChar_of_isDigit (Nat.isDigit_of_mem_toDigits (by decide) (by decide) hc)
  · decide
  · revert c
    decide

/-- A line that defines a function. -/
theorem read_handler {name : String} (hname : IsName name.toList) :
    (read s!"void {name}(object sender, IDialog dialog)").called = none ∧
      (read s!"void {name}(object sender, IDialog dialog)").declared = [] ∧
        (read s!"void {name}(object sender, IDialog dialog)").functions = [name] := by
  have htext : (s!"void {name}(object sender, IDialog dialog)").toList =
      "void ".toList ++ name.toList ++ "(object sender, IDialog dialog)".toList := by
    have hparts : s!"void {name}(object sender, IDialog dialog)" =
      "void " ++ name ++ "(object sender, IDialog dialog)" := rfl
    rw [hparts, String.toList_append, String.toList_append]
  have hquiet : ∀ c ∈ "void ".toList ++ name.toList ++ "(object sender, IDialog dialog)".toList,
      c ≠ '.' ∧ isBinder c = false := by
    intro c hc
    simp only [List.mem_append] at hc
    rcases hc with (hc | hc) | hc
    · revert c
      decide
    · have hc := hname.chars c hc
      exact ⟨not_point_of_isNameChar hc, not_isBinder_of_isNameChar hc⟩
    · revert c
      decide
  have hnames :
      namesIn ("void ".toList ++ name.toList ++ "(object sender, IDialog dialog)".toList) =
      "void".toList :: name.toList :: namesIn "(object sender, IDialog dialog)".toList := by
    rw [namesIn_append_of_startsName (by decide), namesIn_append_of_endsName (by decide),
      hname.namesIn]
    rfl
  have hreading := readText_of_quiet hquiet
  rw [hnames] at hreading
  rw [read_eq, htext, hreading]
  exact ⟨rfl, rfl, by simp [functionsOf]⟩

/-! ### Operations -/

theorem isCall_locator (t : Target) : IsCall t.page [locator t] :=
  isCall_intercalate (by simp)

/-- The keys that are held during a click. -/
def heldKeys (modifiers : List String) : String :=
  commaList (modifiers.map fun m => s!"KeyboardModifier.{m}")

/-- The keys that are held are named behind a point. -/
theorem silent_modifiers (modifiers : List String) :
    (read s!"Modifiers = new[] \x7b {heldKeys modifiers} \x7d").IsSilent := by
  cases modifiers with
  | nil => decide
  | cons m rest =>
    obtain ⟨more, hmore⟩ : ∃ more, heldKeys (m :: rest) = "KeyboardModifier." ++ more := by
      cases rest with
      | nil =>
        rw [heldKeys, List.map_singleton, commaList, String.intercalate_singleton]
        exact ⟨m, rfl⟩
      | cons second rest =>
        rw [heldKeys, List.map_cons, List.map_cons, commaList, String.intercalate_cons_cons,
          String.append_assoc]
        exact ⟨_, String.append_assoc⟩
    have hstart : (read "Modifiers = new[] \x7b KeyboardModifier.").IsSilent := by decide
    have hparts : s!"Modifiers = new[] \x7b {heldKeys (m :: rest)} \x7d" =
        "Modifiers = new[] \x7b KeyboardModifier." ++ (more ++ " \x7d") := by
      change "Modifiers = new[] \x7b " ++ heldKeys (m :: rest) ++ " \x7d" = _
      rw [hmore]
      simp only [String.append_assoc]
      rfl
    rw [hparts]
    exact hstart.append (by decide) _

/-- How often is clicked is assigned to an option. -/
theorem silent_count (count : ℤ) : (read s!"ClickCount = {count}").IsSilent := by
  have hquiet := isQuiet_toString count
  have htext : (s!"ClickCount = {count}").toList = "ClickCount ".toList ++
      '=' :: ' ' :: (toString count).toList := by
    have hparts : s!"ClickCount = {count}" = "ClickCount = " ++ toString count := rfl
    rw [hparts, String.toList_append]
    rfl
  have hpoint : '.' ∉ "ClickCount ".toList ++ '=' :: ' ' :: (toString count).toList := by
    simp only [List.mem_append, List.mem_cons, not_or]
    exact ⟨by decide, by decide, by decide, fun hc => (hquiet _ hc).1 rfl⟩
  have hleft : ("ClickCount ".toList ++ '=' :: ' ' :: (toString count).toList).takeWhile
      (!isBinder ·) = "ClickCount ".toList := by
    rw [List.takeWhile_append_of_pos (by decide)]
    rfl
  have hnames : (namesIn ("ClickCount ".toList ++ '=' :: ' ' :: (toString count).toList)).head? =
      some "ClickCount".toList := by
    rw [namesIn_append_of_endsName (by decide)]
    rfl
  have hvoid : some "ClickCount".toList ≠ some "void".toList := by decide
  rw [read_eq, htext, readText_of_no_point hpoint (by rw [hleft]; decide),
    functionsOf_of_head? (hnames ▸ hvoid)]
  exact ⟨rfl, rfl, rfl⟩

/-- A click is a call, whatever its options are. -/
theorem isCall_click (t : Target) (button : String) (count : ℤ) (modifiers : List String) :
    IsCall t.page (click t button count modifiers) := by
  have hmargin : ∀ c ∈ "    ".toList, c = ' ' := by decide
  have hbutton : (read s!"Button = MouseButton.{Text.capitalized button}").IsSilent := by
    have hstart : (read "Button = MouseButton.").IsSilent := by decide
    exact hstart.append (by decide) _
  have hcall := (isCall_locator t).append "."
  have hbare : ∀ method : String, IsCall t.page [s!"{locator t}.{method}()"] :=
    fun method => (hcall.append method).append "()"
  have hclass : ∀ method optionClass : String,
      IsCall t.page [s!"{locator t}.{method}(new {optionClass}"] :=
    fun method optionClass => ((hcall.append method).append "(new ").append optionClass
  have hoptions := forall_options (P := fun option => (read option).IsSilent) (button == "left")
    modifiers.isEmpty (count > 2) hbutton
    (silent_modifiers modifiers) fun _ => silent_count count
  have hopen : (read "\x7b").IsSilent := by decide
  have hclose : (read "\x7d)").IsSilent := by decide
  rw [click]
  split
  · exact hbare _
  · refine (hclass _ _).cons fun line hline => ?_
    rcases List.mem_cons.mp hline with rfl | hline
    · exact hopen
    · rcases List.mem_append.mp hline with hline | hline
      · obtain ⟨option, hoption, rfl⟩ := List.mem_map.mp hline
        exact ((hoptions option hoption).indent hmargin).endWith (by decide)
      · exact List.mem_singleton.mp hline ▸ hclose

theorem isCall_operation (op : Operation) : IsCall op.page (operation op) := by
  cases op with
  | close page => exact isCall_singleton (by decide)
  | navigate page url =>
    have hgoto : IsPointed ".GotoAsync(" := by decide
    exact ((isCall_singleton hgoto).append _).append _
  | click t button count modifiers => exact isCall_click t button count modifiers
  | fill t text => exact (((isCall_locator t).append ".FillAsync(").append _).append _
  | check t on => exact (isCall_locator t).append _
  | press t key => exact (((isCall_locator t).append ".PressAsync(").append _).append _
  | setFiles t files => exact (((isCall_locator t).append ".SetInputFilesAsync(").append _).append _
  | select t options =>
    exact (((isCall_locator t).append ".SelectOptionAsync(").append _).append _

theorem awaits_performed {op : Operation} (hpage : isPageName op.page = true) :
    Awaits op.page [] (performed op) :=
  ((isCall_operation op).endWith (by decide)).awaits hpage (by decide)

/-! ### Statements -/

theorem variableOf_eq (w : Wait) : variableOf w = w.var downloadVariable := by
  cases w <;> rfl

/-- A line that declares the variable of a wait, which the page takes part in. -/
theorem awaits_declaration {page rest : String} {w : Wait} {lines : List String}
    (hpage : isPageName page = true) (hw : w.IsNamed) (hrest : IsPointed rest)
    (hlines : ∀ line ∈ lines, (read line).IsSilent) :
    Awaits page [w.var downloadVariable]
      (("var " ++ w.var downloadVariable ++ " = await " ++ page ++ rest) :: lines) := by
  have hvar := hw.isVariable fun _ h => isOver_downloadVariable h
  exact awaits_declare (by decide) (by decide) (by decide) (written_singleton hvar)
    (by decide) hpage hrest hlines

/-- **Nested blocks** declare the variables of their waits. -/
theorem awaits_nest {page : String} (hpage : isPageName page = true) {waits : List Wait}
    (hnamed : ∀ w ∈ waits, w.IsNamed) {inner : List String} (hinner : Awaits page [] inner) :
    Awaits page (waits.map (Wait.var downloadVariable)) (nest page waits inner) := by
  have hmargin : ∀ c ∈ "    ".toList, c = ' ' := by decide
  have hlines : ∀ line ∈ ["\x7b", "\x7d);"], (read line).IsSilent := by decide
  induction waits with
  | nil => exact hinner
  | cons w waits ih =>
    have hrest : IsPointed ("." ++ runMethod w ++ "(async () =>") :=
      IsPointed.append (IsPointed.append (by decide) _) _
    have hline : s!"var {variableOf w} = await {page}.{runMethod w}(async () =>" =
        "var " ++ w.var downloadVariable ++ " = await " ++ page ++
          ("." ++ runMethod w ++ "(async () =>") := by
      simp only [variableOf_eq, String.append_assoc]
      rfl
    have houter : Awaits page [w.var downloadVariable]
        ([s!"var {variableOf w} = await {page}.{runMethod w}(async () =>", "\x7b"] ++
          ["\x7d);"]) := by
      rw [hline]
      exact awaits_declaration hpage (hnamed w List.mem_cons_self) hrest hlines
    have hwaits := ih fun w hw => hnamed w (List.mem_cons_of_mem _ hw)
    exact houter.nest hwaits hmargin

/-- The handler of a dialog is defined first, and registered behind that. -/
theorem renders_answerDialog {root : Option String} {page : String} (hpage : isPageName page = true)
    (dismiss : Bool) (number : ℕ) :
    Renders downloadVariable (fun page number => some (handler page number)) root
      (.answerDialog page dismiss number) (statement (.answerDialog page dismiss number)) := by
  obtain ⟨hcalled, hdeclared, hfunctions⟩ := read_handler (isName_handler hpage number)
  have hremove : Awaits page [] [s!"    {page}.Dialog -= {handler page number};"] := by
    have hdialog : IsPointed ".Dialog -= " := by decide
    have hparts : s!"    {page}.Dialog -= {handler page number};" =
        "    " ++ (page ++ ".Dialog -= " ++ handler page number ++ ";") := by
      simp only [String.append_assoc]
      rfl
    rw [hparts]
    exact (((isCall_singleton hdialog).append _).append _).awaits hpage (by decide)
  have hadd : Awaits page [] [s!"{page}.Dialog += {handler page number};"] := by
    have hdialog : IsPointed ".Dialog += " := by decide
    exact (((isCall_singleton hdialog).append _).append _).awaits_self hpage
  -- between the first line and the calls on the page stands the answer, which does nothing
  obtain ⟨answer, hsilent, hlines⟩ : ∃ answer : List String,
      (∀ line ∈ answer, (read line).IsSilent) ∧ statement (.answerDialog page dismiss number) =
        s!"void {handler page number}(object sender, IDialog dialog)" ::
          (answer ++ ([s!"    {page}.Dialog -= {handler page number};"] ++ (["\x7d"] ++
            [s!"{page}.Dialog += {handler page number};"]))) := by
    cases dismiss
    · exact ⟨["\x7b", "    Console.WriteLine($\"Dialog message: \x7bdialog.Message\x7d\");",
        "    dialog.AcceptAsync();"], by decide, rfl⟩
    · exact ⟨["\x7b", "    Console.WriteLine($\"Dialog message: \x7bdialog.Message\x7d\");",
        "    dialog.DismissAsync();"], by decide, rfl⟩
  have hclose : ∀ line ∈ ["\x7d"], (read line).IsSilent := by decide
  have hrest := (hremove.append (hadd.silent_append hclose)).silent_append hsilent
  rw [hlines]
  constructor
  · intro p hp
    rw [calledIn_cons, hcalled, Option.toList_none, List.nil_append] at hp
    rw [hrest.called p hp]
    exact Or.inl List.mem_cons_self
  · intro p hp
    obtain rfl := List.mem_singleton.mp hp
    rw [calledIn_cons]
    exact List.mem_append_right _ hrest.mem_called
  · rw [declaredIn_cons, hdeclared, hrest.declared.eq_nil]
    rfl
  · intro p hp
    cases hp
  · rw [definedIn_cons, hfunctions, hrest.defined]
    rfl

/-- **Lines read as their statement.** -/
theorem renders_statement {root : Option String} {st : Statement} (hst : st.IsPlain) :
    Renders downloadVariable (fun page number => some (handler page number)) root st
      (statement st) := by
  cases st with
  | comment text => exact renders_comment (by decide) (by decide) (by decide) hst
  | openPage page =>
    have hline : statement (.openPage page) =
        ["var " ++ page ++ " = await " ++ "context" ++ ".NewPageAsync();"] := by
      simp only [statement, String.append_assoc]
      rfl
    rw [hline]
    exact renders_openPage (by decide) (by decide) (by decide) hst (by decide) isContext_context
      (by decide)
  | perform op => exact (awaits_performed hst.1).perform
  | answerDialog page dismiss number => exact renders_answerDialog hst dismiss number
  | performWaiting page waits op =>
    obtain ⟨⟨hpage, rfl, -⟩, -, hnamed, htail⟩ := hst
    exact (awaits_nest hpage hnamed (awaits_performed hpage)).performWaiting htail
  | wait page w =>
    have hrest : IsPointed ("." ++ waitMethod w ++ "();") :=
      IsPointed.append (IsPointed.append (by decide) _) _
    have hline : statement (.wait page w) =
        ["var " ++ w.var downloadVariable ++ " = await " ++ page ++
          ("." ++ waitMethod w ++ "();")] := by
      simp only [statement, variableOf_eq, String.append_assoc]
      rfl
    rw [hline]
    exact (awaits_declaration hst.1 hst.2 hrest (by simp)).wait

/-- The lines in front of the actions do nothing to pages, unless there is a root page. -/
theorem silent_header : ∀ line ∈ program.header none, (read line).IsSilent := by
  repeat refine List.forall_mem_cons.mpr ⟨silent_given rfl (by decide +kernel), ?_⟩
  refine List.forall_mem_cons.mpr ⟨by decide +kernel, ?_⟩
  repeat refine List.forall_mem_cons.mpr ⟨silent_given rfl (by decide +kernel), ?_⟩
  exact fun _ hline => nomatch hline

/-- **Classes read as their plans.** -/
theorem program_reads :
    program.Reads downloadVariable fun page number => some (handler page number) where
  indent := by decide
  header := by
    rintro root (rfl | rfl)
    · exact isHeader_of_silent silent_header
    · exact isHeader_concat 8 silent_header (by decide +kernel) (by decide)
  footer := by decide
  emptyBody := by decide
  named _ h := isOver_downloadVariable h
  renamed m n h := by
    rw [downloadVariable_numbered, downloadVariable_numbered] at h
    exact Nat.succ.inj (numbered_inj h)
  handlers page other m n name hpage hother hm hn := by
    refine handler_inj hpage hother ?_
    rw [Option.some.inj hm, Option.some.inj hn]
  statement _ _ _ hst := renders_statement hst

end Scribe.Program.CSharp
