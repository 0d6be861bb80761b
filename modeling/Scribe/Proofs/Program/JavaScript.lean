import Scribe.Program.JavaScript
import Scribe.Proofs.Program.Calls

/-!
# Reading JavaScript programs

The lines of scripts and tests read as their plans (`Scribe.Program.JavaScript.script_reads`,
`Scribe.Program.JavaScript.test_reads`). All waits of an operation are on one level here: a single
line declares their variables together.
-/

namespace Scribe.Program.JavaScript

/-! ### Operations -/

theorem isCall_locator (t : Target) : IsCall t.page [locator t] :=
  isCall_intercalate (by simp)

theorem isQuiet_literal {m : String} (h : m ∈ modifierOrder) : IsQuiet (literal m) := by
  revert m
  decide

/-- The lines of options are silent if the options are. -/
theorem optionLines_silent {options : List String}
    (h : ∀ option ∈ options, (read option).IsSilent) :
    ∀ line ∈ optionLines options, (read line).IsSilent := by
  have hmargin : ∀ c ∈ "  ".toList, c = ' ' := by decide
  induction options with
  | nil => simp [optionLines]
  | cons option rest ih =>
    have hoption := (h option List.mem_cons_self).indent hmargin
    cases rest with
    | nil =>
      intro line hline
      obtain rfl := List.mem_singleton.mp hline
      exact hoption
    | cons second rest =>
      rw [optionLines]
      · intro line hline
        rcases List.mem_cons.mp hline with rfl | hline
        · exact hoption.endWith (by decide)
        · exact ih (fun o ho => h o (List.mem_cons_of_mem _ ho)) line hline
      · simp

/-- A click is a call, whatever its options are. -/
theorem isCall_click (t : Target) (b : MouseButton) (count : ℤ) {modifiers : List String}
    (hmodifiers : ∀ m ∈ modifiers, m ∈ modifierOrder) :
    IsCall t.page (click t b.name count modifiers) := by
  have hbutton : (read s!"button: {literal b.name}").IsSilent := by
    cases b <;> decide
  have hmodifier : (read s!"modifiers: {array modifiers}").IsSilent := by
    have hitems : ∀ item ∈ modifiers.map literal, IsQuiet item := by
      intro item hitem
      obtain ⟨m, hm, rfl⟩ := List.mem_map.mp hitem
      exact isQuiet_literal (hmodifiers m hm)
    have hopen : IsQuiet "[" := by decide
    have hclose : IsQuiet "]" := by decide
    have hquiet : IsQuiet (array modifiers) :=
      (hopen.append (IsQuiet.commaList hitems)).append hclose
    exact read_quiet (by decide) (by decide) hquiet
  have hcount : (read s!"clickCount: {count}").IsSilent :=
    read_quiet (by decide) (by decide) (isQuiet_toString count)
  have hlast : (read "\x7d)").IsSilent := by decide
  have hcall := (isCall_locator t).append "."
  have hmethod : ∀ method more : String, IsCall t.page [s!"{locator t}.{method}{more}"] :=
    fun method more => (hcall.append method).append more
  have hoptions := forall_options (P := fun option => (read option).IsSilent) (b.name == "left")
    modifiers.isEmpty (count > 2) hbutton hmodifier fun _ => hcount
  rw [click]
  -- what the options are does not matter from here on, only that they are silent
  generalize (if b.name == "left" then [] else [s!"button: {literal b.name}"]) ++
      (if modifiers.isEmpty then [] else [s!"modifiers: {array modifiers}"]) ++
        (if count > 2 then [s!"clickCount: {count}"] else []) = options at hoptions ⊢
  cases options with
  | nil => exact hmethod _ _
  | cons option rest =>
    refine (hmethod _ _).cons fun line hline => ?_
    rcases List.mem_append.mp hline with hline | hline
    · exact optionLines_silent hoptions line hline
    · exact List.mem_singleton.mp hline ▸ hlast

theorem isCall_operation {op : Operation} (h : op.IsPlain) : IsCall op.page (operation op) := by
  cases op with
  | close page => exact isCall_singleton (by decide)
  | navigate page url =>
    have hgoto : IsPointed ".goto(" := by decide
    exact ((isCall_singleton hgoto).append _).append _
  | click t button count modifiers =>
    obtain ⟨⟨b, rfl⟩, hmodifiers⟩ := h
    exact isCall_click t b count hmodifiers
  | fill t text => exact (((isCall_locator t).append ".fill(").append _).append _
  | check t on => exact (isCall_locator t).append _
  | press t key => exact (((isCall_locator t).append ".press(").append _).append _
  | setFiles t files => exact (((isCall_locator t).append ".setInputFiles(").append _).append _
  | select t options => exact (((isCall_locator t).append ".selectOption(").append _).append _

/-! ### Statements -/

theorem variableOf_eq (w : Wait) : variableOf w = w.var id := by
  cases w <;> rfl

/-- **The waits of an operation**, all declared together. -/
theorem awaits_performWaiting {page : String} {waits : List Wait} {op : Operation}
    (hpage : isPageName page = true) (hop : op.page = page) (hplain : op.IsPlain)
    (hne : waits ≠ []) (hnamed : ∀ w ∈ waits, w.IsNamed) (context : String) :
    Awaits page (waits.map (Wait.var id)) (statement context (.performWaiting page waits op)) := by
  have hvars : ∀ v ∈ waits.map (Wait.var id), isVariable v = true := by
    intro v hv
    obtain ⟨w, hw, rfl⟩ := List.mem_map.mp hv
    exact (hnamed w hw).isVariable fun _ h => h
  have hfirst : read s!"const [{commaList (waits.map variableOf)}] = await Promise.all([" =
      ⟨0, none, waits.map (Wait.var id), []⟩ := by
    have hparts : s!"const [{commaList (waits.map variableOf)}] = await Promise.all([" =
        "const [" ++ commaList (waits.map (Wait.var id)) ++ "] = await " ++ "Promise" ++
          ".all([" := by
      simp only [funext variableOf_eq, String.append_assoc]
      rfl
    have hpromise : IsName "Promise".toList := ⟨by decide, by decide⟩
    rw [hparts, read_declare (by decide) (by decide) (by decide)
      (written_commaList hvars (by simpa using hne)) (by decide) hpromise (by decide)]
    rfl
  -- each wait is a call on a line of its own
  have hcall : ∀ w, Awaits page [] [s!"  {page}.waitForEvent({eventOf w}),"] := by
    intro w
    have hparts : s!"  {page}.waitForEvent({eventOf w})," =
        "  " ++ (page ++ ".waitForEvent(" ++ eventOf w ++ "),") := by
      simp only [String.append_assoc]
      rfl
    have hwait : IsPointed ".waitForEvent(" := by decide
    rw [hparts]
    exact (((isCall_singleton hwait).append _).append _).awaits hpage (by decide)
  have hop := hop ▸ (isCall_operation hplain).awaits_self (hop ▸ hpage)
  have hlines : Awaits page [] (waits.map (fun w => s!"  {page}.waitForEvent({eventOf w}),") ++
      (indent "  " (operation op) ++ ["]);"])) := by
    clear hvars hfirst hne hnamed
    induction waits with
    | nil => exact hop.indent_append (by decide) (by decide)
    | cons w waits ih => exact (hcall w).append ih
  have hstatement := hlines.declare hfirst
  rw [← List.append_assoc] at hstatement
  exact hstatement

/-- The handler of a dialog is a call on its page. -/
theorem isCall_answerDialog (page : String) (dismiss : Bool) (number : ℕ) (context : String) :
    IsCall page (statement context (.answerDialog page dismiss number)) := by
  have honce : IsPointed ".once('dialog', dialog => \x7b" := by decide
  refine (isCall_singleton honce).cons ?_
  cases dismiss <;> decide

/-- **Lines read as their statement.** -/
theorem renders_statement {root : Option String} {context : String}
    (hcontext : IsContext root context) {st : Statement} (hst : st.IsPlain) :
    Renders id (fun _ _ => none) root st (statement context st) := by
  cases st with
  | comment text => exact renders_comment (by decide) (by decide) (by decide) hst
  | openPage page =>
    have hline : statement context (.openPage page) =
        ["const " ++ page ++ " = await " ++ context ++ ".newPage();"] := by
      simp only [statement, String.append_assoc]
      rfl
    rw [hline]
    exact renders_openPage (by decide) (by decide) (by decide) hst (by decide)
      hcontext (by decide)
  | perform op =>
    exact (((isCall_operation hst.2).endWith (by decide)).awaits hst.1 (by decide)).perform
  | answerDialog page dismiss number =>
    exact ((isCall_answerDialog page dismiss number context).awaits_self hst).renders rfl rfl
      (fun p hp => by cases hp) rfl
  | performWaiting page waits op =>
    obtain ⟨⟨hpage, hop, hplain⟩, hne, hnamed, htail⟩ := hst
    exact (awaits_performWaiting hpage hop hplain hne hnamed context).performWaiting htail
  | wait page w =>
    have hline : statement context (.wait page w) =
        ["const " ++ w.var id ++ " = await " ++ page ++
          (".waitForEvent(" ++ eventOf w ++ ");")] := by
      simp only [statement, variableOf_eq, String.append_assoc]
      rfl
    have hwait : IsPointed ".waitForEvent(" := by decide
    have hvar : isVariable (w.var id) = true := hst.2.isVariable fun _ h => h
    rw [hline]
    exact (awaits_declare (by decide) (by decide) (by decide)
      (written_singleton hvar) (by decide) hst.1 ((hwait.append _).append _) (by simp)).wait

/-! ### Programs -/

/-- The lines in front of the actions do nothing to pages, unless there is a root page. -/
theorem silent_header : ∀ line ∈ script.header none, (read line).IsSilent := by
  repeat refine List.forall_mem_cons.mpr ⟨silent_given rfl (by decide +kernel), ?_⟩
  exact fun _ hline => nomatch hline

/-- **Scripts read as their plans.** -/
theorem script_reads : script.Reads id fun _ _ => none where
  indent := by decide
  header := by
    rintro root (rfl | rfl)
    · exact isHeader_of_silent silent_header
    · exact isHeader_concat 2 silent_header (by decide +kernel) (by decide)
  footer := by decide
  emptyBody := by decide
  named _ h := h
  renamed _ _ h := numbered_inj h
  handlers _ _ _ _ _ _ _ h := by cases h
  statement _ _ _ hst := renders_statement isContext_context hst

/-- **Tests read as their plans.** -/
theorem test_reads : test.Reads id fun _ _ => none where
  indent := by decide
  header := by
    rintro root (rfl | rfl) <;> decide +kernel
  footer := by decide
  emptyBody := by decide
  named _ h := h
  renamed _ _ h := numbered_inj h
  handlers _ _ _ _ _ _ _ h := by cases h
  statement root hroot st hst := by
    refine renders_statement ?_ hst
    rcases hroot with rfl | rfl
    · exact isContext_context
    · exact ⟨rootAlias, ".context()", rfl, ⟨by decide, by decide⟩, Or.inr (by decide), fun _ => rfl⟩

end Scribe.Program.JavaScript
