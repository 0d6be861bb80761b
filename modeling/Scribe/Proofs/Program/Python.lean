import Scribe.Program.Python
import Scribe.Proofs.Program.Calls

/-!
# Reading Python programs

The lines of scripts and tests read as their plans (`Scribe.Program.Python.script_reads`,
`Scribe.Program.Python.asyncScript_reads`, `Scribe.Program.Python.test_reads`). A wait opens a block
here as well, but its variable is assigned behind the block, from a value of another name that the
block has bound: the variables of nested blocks come in the opposite order.
-/

namespace Scribe.Program.Python

/-! ### Operations -/

theorem isCall_locator (t : Target) : IsCall t.page [locator t] :=
  isCall_intercalate (by simp)

theorem isCall_operation (op : Operation) : IsCall op.page [operation op] := by
  cases op with
  | close page => exact isCall_singleton (by decide)
  | navigate page url =>
    have hgoto : IsPointed ".goto(" := by decide
    exact ((isCall_singleton hgoto).append _).append _
  | click t button count modifiers =>
    have hcall : ∀ method options : String, IsCall t.page [s!"{locator t}.{method}({options})"] :=
      fun method options =>
        (((((isCall_locator t).append ".").append method).append "(").append options).append ")"
    exact hcall _ _
  | fill t text => exact (((isCall_locator t).append ".fill(").append _).append _
  | check t on => exact (isCall_locator t).append _
  | press t key => exact (((isCall_locator t).append ".press(").append _).append _
  | setFiles t files => exact (((isCall_locator t).append ".set_input_files(").append _).append _
  | select t options => exact (((isCall_locator t).append ".select_option(").append _).append _

/-- An operation is a call, awaited or not. -/
theorem awaits_operation (awaits : Bool) {op : Operation} (hpage : isPageName op.page = true) :
    Awaits op.page [] [awaiting awaits ++ operation op] := by
  have hlead : isLead (awaiting awaits) = true := by
    cases awaits <;> decide
  exact (isCall_operation op).awaits hpage hlead

/-! ### Blocks that wait -/

theorem variableOf_eq (w : Wait) : variableOf w = w.var id := by
  cases w <;> rfl

/-- What a block binds is no page. -/
theorem not_isPageName_info (v : String) : isPageName (v ++ "_info") = false := by
  rw [Bool.eq_false_iff]
  intro hpage
  have hmem : '_' ∈ (v ++ "_info").toList := by simp [String.toList_append]
  exact ne_underscore_of_isPageName hpage '_' hmem rfl

theorem isName_info {v : String} (hv : isVariable v = true) : IsName (v ++ "_info").toList := by
  have hname := isName_of_isVariable hv
  refine ⟨fun c hc => ?_, by simp⟩
  rw [String.toList_append, List.mem_append] at hc
  rcases hc with hc | hc
  · exact hname.chars c hc
  · revert c
    decide

theorem isSign_awaiting (awaits : Bool) : isSign (" = " ++ awaiting awaits) = true := by
  cases awaits <;> decide

/-- The name that a block binds. -/
def infoOf (w : Wait) : String :=
  s!"{variableOf w}_info"

/-- The lines around a block: the first calls the page, and the last declares the variable. -/
theorem awaits_block (awaits : Bool) {page keyword : String} (hpage : isPageName page = true)
    (hkeyword : isLead (keyword ++ " ") = true) {w : Wait} (hw : w.IsNamed) :
    Awaits page [w.var id]
      ([s!"{keyword} {page}.{expectation w}() as {infoOf w}:"] ++
        [s!"{variableOf w} = {awaiting awaits}{infoOf w}.value"]) := by
  have hvar : isVariable (w.var id) = true := hw.isVariable fun _ h => h
  have hinfo : infoOf w = w.var id ++ "_info" := by
    rw [← variableOf_eq]
    rfl
  have hfirst : s!"{keyword} {page}.{expectation w}() as {infoOf w}:" =
      (keyword ++ " ") ++ page ++ ("." ++ expectation w ++ "() as " ++ infoOf w ++ ":") := by
    simp only [String.append_assoc]
    rfl
  have hrest : IsPointed ("." ++ expectation w ++ "() as " ++ infoOf w ++ ":") :=
    (((IsPointed.append (by decide) _).append _).append _).append _
  have hlast : s!"{variableOf w} = {awaiting awaits}{infoOf w}.value" =
      "" ++ w.var id ++ (" = " ++ awaiting awaits) ++ infoOf w ++ ".value" := by
    simp only [variableOf_eq, String.empty_append, String.append_assoc]
    rfl
  have hname : IsName (infoOf w).toList := hinfo ▸ isName_info hvar
  have hvalue : IsPointed ".value" := by decide
  have hnone : ∀ w ∈ namesIn "".toList, isVariable (String.ofList w) = false := by decide
  -- the first line calls the page, and the last declares the variable from no page
  have hcall := read_call hkeyword hpage hrest
  have hdeclare := read_declare (by decide) hnone (by decide) (written_singleton hvar)
    (isSign_awaiting awaits) hname hvalue
  rw [← hfirst] at hcall
  rw [← hlast, hinfo, not_isPageName_info, ← hinfo] at hdeclare
  rw [List.singleton_append]
  constructor
  · simp [hcall.1, hdeclare]
  · simp [hcall.1]
  · simp [hcall.2.1, hdeclare]
  · rintro v ⟨⟩
    simp [outsideIn_cons, hdeclare]
  · simp [hcall.2.2, hdeclare]

/-- **Nested blocks** declare the variables of their waits. -/
theorem awaits_nest (awaits : Bool) {page : String} (hpage : isPageName page = true)
    {waits : List Wait} (hnamed : ∀ w ∈ waits, w.IsNamed) {inner : List String}
    (hinner : Awaits page [] inner) :
    Awaits page (waits.map (Wait.var id)) (nest awaits page waits inner) := by
  have hmargin : ∀ c ∈ "    ".toList, c = ' ' := by decide
  have hkeyword : isLead ((if awaits then "async with" else "with") ++ " ") = true := by
    cases awaits <;> decide
  induction waits with
  | nil => exact hinner
  | cons w waits ih =>
    have houter := awaits_block awaits hpage hkeyword (hnamed w List.mem_cons_self)
    have hwaits := ih fun w hw => hnamed w (List.mem_cons_of_mem _ hw)
    exact houter.nest hwaits hmargin

/-! ### Statements -/

/-- **Lines read as their statement.** -/
theorem renders_statement {root : Option String} (awaits : Bool) {context : String}
    (hcontext : IsContext root context) {st : Statement} (hst : st.IsPlain) :
    Renders id (fun _ _ => none) root st (statement awaits context st) := by
  cases st with
  | comment text => exact renders_comment (by decide) (by decide) (by decide) hst
  | openPage page =>
    have hline : statement awaits context (.openPage page) =
        ["" ++ page ++ (" = " ++ awaiting awaits) ++ context ++ ".new_page()"] := by
      simp only [statement, String.empty_append, String.append_assoc]
      rfl
    rw [hline]
    exact renders_openPage (by decide) (by decide) (by decide) hst (isSign_awaiting awaits) hcontext
      (by decide)
  | perform op => exact (awaits_operation awaits hst.1).perform
  | answerDialog page dismiss number =>
    have honce : IsPointed ".once(\"dialog\", lambda dialog: dialog." := by decide
    have hcall : ∀ method : String,
        IsCall page [s!"{page}.once(\"dialog\", lambda dialog: dialog.{method}())"] := fun method =>
      ((isCall_singleton honce).append method).append "())"
    exact ((hcall _).awaits_self hst).renders rfl rfl (fun p hp => by cases hp) rfl
  | performWaiting page waits op =>
    obtain ⟨⟨hpage, rfl, -⟩, -, hnamed, htail⟩ := hst
    exact (awaits_nest awaits hpage hnamed (awaits_operation awaits hpage)).performWaiting htail
  | wait page w =>
    have hvar : isVariable (w.var id) = true := hst.2.isVariable fun _ h => h
    have hline : statement awaits context (.wait page w) =
        ["" ++ w.var id ++ (" = " ++ awaiting awaits) ++ page ++
          (".wait_for_event(" ++ eventOf w ++ ")")] := by
      simp only [statement, variableOf_eq, String.empty_append, String.append_assoc]
      rfl
    have hwait : IsPointed ".wait_for_event(" := by decide
    rw [hline]
    exact (awaits_declare (by decide) (by decide) (by decide) (written_singleton hvar)
      (isSign_awaiting awaits) hst.1 ((hwait.append _).append _) (by simp)).wait

/-! ### Programs -/

/-- The lines in front of the actions do nothing to pages, unless there is a root page. -/
theorem silent_header (l : Language) (hl : l = script ∨ l = asyncScript ∨ l = test) :
    ∀ line ∈ l.header none, (read line).IsSilent := by
  rcases hl with rfl | rfl | rfl
  all_goals
    repeat refine List.forall_mem_cons.mpr ⟨silent_given rfl (by decide +kernel), ?_⟩
    exact fun _ hline => nomatch hline

/-- **Scripts read as their plans.** -/
theorem script_reads : script.Reads id fun _ _ => none where
  indent := by decide
  header := by
    rintro root (rfl | rfl)
    · exact isHeader_of_silent (silent_header _ (.inl rfl))
    · exact isHeader_concat 4 (silent_header _ (.inl rfl)) (by decide +kernel) (by decide)
  footer := by decide
  emptyBody := by decide
  named _ h := h
  renamed _ _ h := numbered_inj h
  handlers _ _ _ _ _ _ _ h := by cases h
  statement _ _ _ hst := renders_statement false isContext_context hst

/-- **Asynchronous scripts read as their plans.** -/
theorem asyncScript_reads : asyncScript.Reads id fun _ _ => none where
  indent := by decide
  header := by
    rintro root (rfl | rfl)
    · exact isHeader_of_silent (silent_header _ (.inr (.inl rfl)))
    · exact isHeader_concat 4 (silent_header _ (.inr (.inl rfl))) (by decide +kernel) (by decide)
  footer := by decide
  emptyBody := by decide
  named _ h := h
  renamed _ _ h := numbered_inj h
  handlers _ _ _ _ _ _ _ h := by cases h
  statement _ _ _ hst := renders_statement true isContext_context hst

/-- **Tests read as their plans.** -/
theorem test_reads : test.Reads id fun _ _ => none where
  indent := by decide
  header := by
    rintro root (rfl | rfl)
    · exact isHeader_of_silent (silent_header _ (.inr (.inr rfl)))
    · have hsilent : ∀ line ∈ ["import re", "from playwright.sync_api import Page, expect", "", ""],
          (read line).IsSilent := by
        repeat refine List.forall_mem_cons.mpr ⟨silent_given rfl (by decide +kernel), ?_⟩
        exact fun _ hline => nomatch hline
      exact isHeader_concat 0 hsilent (by decide +kernel) (by decide)
  footer := by decide
  emptyBody := by decide
  named _ h := h
  renamed _ _ h := numbered_inj h
  handlers _ _ _ _ _ _ _ h := by cases h
  statement root hroot st hst := by
    refine renders_statement false ?_ hst
    rcases hroot with rfl | rfl
    · exact isContext_context
    · exact ⟨rootAlias, ".context", rfl, ⟨by decide, by decide⟩, Or.inr (by decide), fun _ => rfl⟩

end Scribe.Program.Python
