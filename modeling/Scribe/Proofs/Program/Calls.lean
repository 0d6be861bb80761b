import Scribe.Proofs.PageNames.Binding
import Scribe.Proofs.Program.Statement

/-!
# Lines that perform an operation

An operation is a call on its page, which may go on over lines that do nothing of their own
(`Scribe.Program.IsCall`). A call may stand in blocks that wait, one in the other; all that such
lines do is to call the page, and to declare the variables of the waits, the first of them outside
of all blocks (`Scribe.Program.Awaits`).
-/

namespace Scribe.Program

variable {page lead text sign name rest : String} {vars lines : List String}

/-! ### Single lines -/

/-- A line that calls a page. -/
theorem read_call (hlead : isLead lead = true) (hpage : isPageName page = true)
    (hrest : IsPointed rest) :
    (read (lead ++ page ++ rest)).called = some page ∧
      (read (lead ++ page ++ rest)).declared = [] ∧
        (read (lead ++ page ++ rest)).functions = [] := by
  rw [read_eq, readText_call hlead hpage hrest]
  exact ⟨rfl, rfl, rfl⟩

/-- A line that declares variables. -/
theorem read_declare (hlead : isLead lead = true)
    (hnone : ∀ w ∈ namesIn lead.toList, isVariable (String.ofList w) = false)
    (hflush : lead.toList.head? ≠ some ' ') (htext : Written text vars)
    (hsign : isSign sign = true) (hname : IsName name.toList) (hrest : IsPointed rest) :
    read (lead ++ text ++ sign ++ name ++ rest) =
      ⟨0, if isPageName name then some name else none, vars, []⟩ := by
  have hdepth :
      ((lead ++ text ++ sign ++ name ++ rest).toList.takeWhile (· == ' ')).length = 0 := by
    -- the line does not begin with a space, so it is not indented
    obtain ⟨c, more, hmore, hc⟩ : ∃ c more, (lead ++ text).toList = c :: more ∧ c ≠ ' ' := by
      rw [String.toList_append]
      cases htoList : lead.toList with
      | nil => exact htext.flush
      | cons c more => exact ⟨c, more ++ text.toList, rfl, by simpa [htoList] using hflush⟩
    rw [String.toList_append, String.toList_append, String.toList_append, hmore]
    simp [hc]
  rw [read_eq, readText_declare hlead hnone htext hsign hname hrest, hdepth]

/-- A word with a quiet text behind it. -/
theorem read_quiet (hlead : isLead lead = true) (hword : namesIn lead.toList ≠ [])
    (hrest : IsQuiet rest) : (read (lead ++ rest)).IsSilent := by
  obtain ⟨hchars, hends, hvoid⟩ := isLead_iff.mp hlead
  have hquiet : IsQuiet lead := hchars
  have hnames : (namesIn (lead ++ rest).toList).head? = (namesIn lead.toList).head? := by
    rw [String.toList_append, namesIn_append_of_endsName hends]
    exact List.head?_append_of_ne_nil _ hword
  rw [read_eq, readText_of_quiet (hquiet.append hrest),
    functionsOf_of_head? (hnames ▸ hvoid)]
  exact ⟨rfl, rfl, rfl⟩

/-- A text that begins with a point. -/
theorem IsPointed.isSilent (h : IsPointed text) : (read text).IsSilent := by
  obtain ⟨more, hmore⟩ := h.eq_cons
  rw [read_eq, hmore, readText_point]
  exact ⟨rfl, rfl, rfl⟩

/-- A text goes on behind a point. -/
theorem Reading.IsSilent.append (h : (read text).IsSilent) (hpoint : '.' ∈ text.toList)
    (more : String) : (read (text ++ more)).IsSilent := by
  rw [read_eq] at h ⊢
  rw [String.toList_append, readText_append_of_mem hpoint]
  exact h

/-- An indent does not make a line speak. -/
theorem Reading.IsSilent.indent {margin line : String} (h : (read line).IsSilent)
    (hmargin : ∀ c ∈ margin.toList, c = ' ') : (read (margin ++ line)).IsSilent := by
  rw [read_append_of_spaces hmargin]
  exact h

/-- Nor does what ends it. -/
theorem Reading.IsSilent.endWith {stop line : String} (h : (read line).IsSilent)
    (hstop : isEnd stop = true) : (read (line ++ stop)).IsSilent := by
  rwa [read_append_of_isEnd hstop]

/-- The options of a click, each of them being there or not. -/
theorem forall_options {P : String → Prop} (left none : Bool) (more : Prop) [Decidable more]
    {button modifiers count : String} (hbutton : P button) (hmodifiers : P modifiers)
    (hcount : more → P count) :
    ∀ option ∈ (if left then [] else [button]) ++ (if none then [] else [modifiers]) ++
      (if more then [count] else []), P option := by
  rw [List.forall_mem_append, List.forall_mem_append]
  refine ⟨⟨?_, ?_⟩, ?_⟩
  all_goals
    split
    all_goals simp [*]

/-! ### Calls -/

/-- **A call on a page**, with silent lines behind it. -/
def IsCall (page : String) (lines : List String) : Prop :=
  ∃ rest tail, lines = (page ++ rest) :: tail ∧ IsPointed rest ∧
    ∀ line ∈ tail, (read line).IsSilent

/-- A call on a single line. -/
theorem isCall_singleton (hrest : IsPointed rest) : IsCall page [page ++ rest] :=
  ⟨rest, [], rfl, hrest, fun _ hline => by cases hline⟩

/-- A call that goes on. -/
theorem IsCall.append {line : String} (h : IsCall page [line]) (more : String) :
    IsCall page [line ++ more] := by
  obtain ⟨rest, tail, heq, hrest, -⟩ := h
  obtain ⟨rfl, -⟩ := List.cons.inj heq
  rw [String.append_assoc]
  exact isCall_singleton (hrest.append more)

theorem IsCall.ne_nil (h : IsCall page lines) : lines ≠ [] := by
  obtain ⟨rest, tail, rfl, -⟩ := h
  exact List.cons_ne_nil _ _

/-- A call with silent lines behind it. -/
theorem IsCall.cons {line : String} (h : IsCall page [line])
    (hlines : ∀ line ∈ lines, (read line).IsSilent) : IsCall page (line :: lines) := by
  obtain ⟨rest, tail, heq, hrest, -⟩ := h
  obtain ⟨rfl, -⟩ := List.cons.inj heq
  exact ⟨rest, lines, rfl, hrest, hlines⟩

/-- A page with points between it and what is reached from it. -/
theorem isCall_intercalate {steps : List String} (h : steps ≠ []) :
    IsCall page [".".intercalate (page :: steps)] := by
  obtain ⟨step, steps, rfl⟩ := List.exists_cons_of_ne_nil h
  have hpoint : IsPointed "." := by decide
  rw [String.intercalate_cons_cons]
  exact (isCall_singleton hpoint).append _

theorem IsCall.endWith {stop : String} (h : IsCall page lines) (hstop : isEnd stop = true) :
    IsCall page (endWith stop lines) := by
  obtain ⟨rest, tail, rfl, hrest, htail⟩ := h
  cases tail with
  | nil =>
    refine ⟨rest ++ stop, [], ?_, hrest.append stop, htail⟩
    rw [Program.endWith, String.append_assoc]
  | cons second tail =>
    refine ⟨rest, Program.endWith stop (second :: tail), rfl, hrest, fun line hline => ?_⟩
    have hread : read line ∈ (second :: tail).map read := by
      rw [← map_read_endWith hstop]
      exact List.mem_map_of_mem hline
    obtain ⟨inner, hinner, heq⟩ := List.mem_map.mp hread
    rw [← heq]
    exact htail inner hinner

/-! ### Calls inside of blocks -/

/-- **Lines that call a page and declare variables**, the first one outside of nested blocks. -/
structure Awaits (page : String) (vars : List String) (lines : List String) : Prop where
  /-- No other page is called. -/
  called : ∀ p ∈ calledIn lines, p = page
  /-- The page is called. -/
  mem_called : page ∈ calledIn lines
  /-- The variables are declared. -/
  declared : (declaredIn lines).Perm vars
  /-- The first one is declared outside of nested blocks. -/
  outside : ∀ v ∈ vars.head?, v ∈ outsideIn 0 lines
  /-- No function is defined. -/
  defined : definedIn lines = []

/-- A call, with a word like `await` in front of it. -/
theorem IsCall.awaits (h : IsCall page lines) (hpage : isPageName page = true)
    (hlead : isLead lead = true) : Awaits page [] (startWith lead lines) := by
  obtain ⟨rest, tail, rfl, hrest, htail⟩ := h
  obtain ⟨hcalled, hdeclared, hfunctions⟩ := read_call hlead hpage hrest
  have hfirst : startWith lead ((page ++ rest) :: tail) = (lead ++ page ++ rest) :: tail := by
    rw [startWith, String.append_assoc]
  have hcalls : calledIn (startWith lead ((page ++ rest) :: tail)) = [page] := by
    rw [hfirst, calledIn_cons, hcalled, calledIn_of_silent htail]
    rfl
  have hdeclares : declaredIn (startWith lead ((page ++ rest) :: tail)) = [] := by
    rw [hfirst, declaredIn_cons, hdeclared, declaredIn_of_silent htail]
    rfl
  refine ⟨?_, ?_, ?_, ?_, ?_⟩
  · simp [hcalls]
  · simp [hcalls]
  · rw [hdeclares]
  · rintro v ⟨⟩
  · rw [hfirst, definedIn_cons, hfunctions, definedIn_of_silent htail]
    rfl

/-- A call as it stands. -/
theorem IsCall.awaits_self (h : IsCall page lines) (hpage : isPageName page = true) :
    Awaits page [] lines := by
  have hstart : startWith "" lines = lines := by
    cases lines with
    | nil => rfl
    | cons line rest => rw [startWith, String.empty_append]
  have hlead : isLead "" = true := by decide
  have hawaits := h.awaits hpage hlead
  rwa [hstart] at hawaits

/-- A line that declares what a method of the page returns, with silent lines behind it. -/
theorem awaits_declare (hlead : isLead lead = true)
    (hnone : ∀ w ∈ namesIn lead.toList, isVariable (String.ofList w) = false)
    (hflush : lead.toList.head? ≠ some ' ') (htext : Written text vars)
    (hsign : isSign sign = true) (hpage : isPageName page = true) (hrest : IsPointed rest)
    (hlines : ∀ line ∈ lines, (read line).IsSilent) :
    Awaits page vars ((lead ++ text ++ sign ++ page ++ rest) :: lines) := by
  have hread := read_declare hlead hnone hflush htext hsign (isName_of_isPageName hpage) hrest
  rw [if_pos hpage] at hread
  refine ⟨?_, ?_, ?_, ?_, ?_⟩
  · simp [hread, calledIn_of_silent hlines]
  · simp [hread]
  · simp [hread, declaredIn_of_silent hlines]
  · intro v hv
    rw [outsideIn_cons, hread]
    exact List.mem_append_left _ (List.mem_of_mem_head? hv)
  · simp [hread, definedIn_of_silent hlines]

/-- Silent lines in front change nothing. -/
theorem Awaits.silent_append {before : List String} (h : Awaits page vars lines)
    (hbefore : ∀ line ∈ before, (read line).IsSilent) : Awaits page vars (before ++ lines) where
  called p hp := by
    rw [calledIn_append, calledIn_of_silent hbefore, List.nil_append] at hp
    exact h.called p hp
  mem_called := by
    rw [calledIn_append, calledIn_of_silent hbefore, List.nil_append]
    exact h.mem_called
  declared := by
    rw [declaredIn_append, declaredIn_of_silent hbefore, List.nil_append]
    exact h.declared
  outside v hv := by
    rw [outsideIn_append]
    exact List.mem_append_right _ (h.outside v hv)
  defined := by
    rw [definedIn_append, definedIn_of_silent hbefore, List.nil_append]
    exact h.defined

/-- Calls go on with calls on the same page. -/
theorem Awaits.append {more : List String} (h : Awaits page vars lines)
    (hmore : Awaits page [] more) : Awaits page vars (lines ++ more) where
  called p hp := by
    rw [calledIn_append, List.mem_append] at hp
    exact hp.elim (h.called p) (hmore.called p)
  mem_called := by
    rw [calledIn_append]
    exact List.mem_append_left _ h.mem_called
  declared := by
    rw [declaredIn_append, hmore.declared.eq_nil, List.append_nil]
    exact h.declared
  outside v hv := by
    rw [outsideIn_append]
    exact List.mem_append_left _ (h.outside v hv)
  defined := by
    rw [definedIn_append, h.defined, hmore.defined]
    rfl

/-- Variables are declared together in front of calls. -/
theorem Awaits.declare {first : String} (h : Awaits page [] lines)
    (hfirst : read first = ⟨0, none, vars, []⟩) : Awaits page vars (first :: lines) where
  called p hp := by
    simp only [calledIn_cons, hfirst, Option.toList_none, List.nil_append] at hp
    exact h.called p hp
  mem_called := by
    rw [calledIn_cons]
    exact List.mem_append_right _ h.mem_called
  declared := by
    rw [declaredIn_cons, hfirst, h.declared.eq_nil, List.append_nil]
  outside v hv := by
    rw [outsideIn_cons, hfirst]
    exact List.mem_append_left _ (List.mem_of_mem_head? hv)
  defined := by
    rw [definedIn_cons, hfirst, h.defined]
    rfl

/-- Calls may stand indented in front of a line that closes a bracket. -/
theorem Awaits.indent_append {margin : String} {after : List String} (h : Awaits page [] lines)
    (hmargin : ∀ c ∈ margin.toList, c = ' ') (hafter : ∀ line ∈ after, (read line).IsSilent) :
    Awaits page [] (indent margin lines ++ after) where
  called p hp := by
    rw [calledIn_append, calledIn_indent hmargin, calledIn_of_silent hafter, List.append_nil] at hp
    exact h.called p hp
  mem_called := by
    rw [calledIn_append, calledIn_indent hmargin]
    exact List.mem_append_left _ h.mem_called
  declared := by
    rw [declaredIn_append, declaredIn_indent hmargin, declaredIn_of_silent hafter, List.append_nil]
    exact h.declared
  outside v hv := by cases hv
  defined := by
    rw [definedIn_append, definedIn_indent hmargin, definedIn_of_silent hafter, List.append_nil]
    exact h.defined

/-- **A block that waits**: the lines in front of it and behind it declare the variable of the wait,
and lines that call the same page stand in it, indented. -/
theorem Awaits.nest {before after inner : List String} {v margin : String}
    (houter : Awaits page [v] (before ++ after)) (hinner : Awaits page vars inner)
    (hmargin : ∀ c ∈ margin.toList, c = ' ') :
    Awaits page (v :: vars) (before ++ indent margin inner ++ after) := by
  -- what the lines around the block do is shared between those in front and those behind
  have hcalled := houter.called
  have hmem := houter.mem_called
  have hdeclared := houter.declared
  have houtside := houter.outside v rfl
  have hdefined := houter.defined
  simp only [calledIn_append, declaredIn_append, outsideIn_append, definedIn_append,
    List.mem_append, List.append_eq_nil_iff] at hcalled hmem hdeclared houtside hdefined
  refine ⟨?_, ?_, ?_, ?_, ?_⟩
  · simp only [calledIn_append, calledIn_indent hmargin, List.mem_append]
    rintro p ((hp | hp) | hp)
    · exact hcalled p (Or.inl hp)
    · exact hinner.called p hp
    · exact hcalled p (Or.inr hp)
  · simp only [calledIn_append, calledIn_indent hmargin, List.mem_append]
    exact Or.inl (Or.inr hinner.mem_called)
  · -- the declarations of the inner lines move behind those of the outer ones
    have hswap : (declaredIn before ++ declaredIn inner ++ declaredIn after).Perm
        (declaredIn before ++ declaredIn after ++ declaredIn inner) := by
      rw [List.append_assoc, List.append_assoc]
      exact List.perm_append_comm.append_left _
    rw [declaredIn_append, declaredIn_append, declaredIn_indent hmargin]
    exact hswap.trans (hdeclared.append hinner.declared)
  · rintro w ⟨⟩
    simp only [outsideIn_append, List.mem_append]
    exact houtside.elim (fun h => Or.inl (Or.inl h)) Or.inr
  · rw [definedIn_append, definedIn_append, definedIn_indent hmargin, hdefined.1, hdefined.2,
      hinner.defined]
    rfl

/-! ### Statements that call a page -/

/-- Waits are received by variables. -/
theorem Wait.IsNamed.isVariable {w : Wait} (h : w.IsNamed) {rename : String → String}
    (hrename : ∀ name, isOver "download" name = true → isOver "download" (rename name) = true) :
    isVariable (w.var rename) = true := by
  rw [Program.isVariable, Bool.or_eq_true]
  cases w with
  | popup v => exact Or.inl h
  | download v => exact Or.inr (hrename v h)

section

variable {rename : String → String} {handler : String → ℕ → Option String} {root : Option String}
  {st : Statement}

/-- **Lines that call a page and declare variables** read as a statement that does so. -/
theorem Awaits.renders (h : Awaits page vars lines) (huses : st.uses = [page])
    (hvars : st.vars rename = vars) (hpages : ∀ p ∈ st.pages, p ∈ vars.head?)
    (hdialog : (st.dialog?.bind fun d => handler d.1 d.2) = none) :
    Renders rename handler root st lines where
  called p hp := by
    rw [huses, h.called p hp]
    exact Or.inl List.mem_cons_self
  uses p hp := by
    rw [huses, List.mem_singleton] at hp
    exact hp ▸ h.mem_called
  declared := hvars ▸ h.declared
  outside p hp := h.outside p (hpages p hp)
  defined := by
    rw [h.defined, hdialog]
    rfl

theorem Awaits.perform {op : Operation} (h : Awaits op.page [] lines) :
    Renders rename handler root (.perform op) lines :=
  h.renders rfl rfl (fun _ hp => by cases hp) rfl

theorem Awaits.wait {w : Wait} (h : Awaits page [w.var rename] lines) :
    Renders rename handler root (.wait page w) lines := by
  refine h.renders rfl rfl (fun p hp => ?_) rfl
  cases w with
  | popup v => simpa [Statement.pages, Statement.waits, Wait.popup?, Wait.var, eq_comm] using hp
  | download v => simp [Statement.pages, Statement.waits, Wait.popup?] at hp

/-- Only the first wait declares a page. -/
theorem mem_head?_of_tail {waits : List Wait} (h : ∀ w ∈ waits.tail, w.popup? = none) {p : String}
    (hp : p ∈ waits.filterMap Wait.popup?) : p ∈ (waits.map (Wait.var rename)).head? := by
  obtain ⟨w, hw, hpopup⟩ := List.mem_filterMap.mp hp
  cases waits with
  | nil => cases hw
  | cons first rest =>
    rcases List.mem_cons.mp hw with rfl | hrest
    · cases w with
      | popup v => simpa [Wait.popup?, Wait.var] using hpopup
      | download v => cases hpopup
    · rw [h w hrest] at hpopup
      cases hpopup

theorem Awaits.performWaiting {waits : List Wait} {op : Operation}
    (h : Awaits page (waits.map (Wait.var rename)) lines)
    (hwaits : ∀ w ∈ waits.tail, w.popup? = none) :
    Renders rename handler root (.performWaiting page waits op) lines :=
  h.renders rfl rfl (fun _ hp => mem_head?_of_tail hwaits hp) rfl

/-- A comment, behind a mark that holds no name. -/
theorem renders_comment {mark : String} (hmark : IsQuiet mark)
    (hends : endsName mark.toList = true) (hnames : namesIn mark.toList = [])
    (htext : (Statement.comment text).IsPlain) :
    Renders rename handler root (.comment text) [mark ++ text] := by
  have hsilent : ∀ line ∈ [mark ++ text], (read line).IsSilent := by
    intro line hline
    obtain rfl := List.mem_singleton.mp hline
    have hvoid : (namesIn (mark ++ text).toList).head? ≠ some "void".toList := by
      rw [String.toList_append, namesIn_append_of_endsName hends, hnames]
      exact htext.2
    rw [read_eq, readText_of_quiet (hmark.append htext.1), functionsOf_of_head? hvoid]
    exact ⟨rfl, rfl, rfl⟩
  constructor
  · intro p hp
    rw [calledIn_of_silent hsilent] at hp
    cases hp
  · intro p hp
    cases hp
  · rw [declaredIn_of_silent hsilent]
    rfl
  · intro p hp
    cases hp
  · exact definedIn_of_silent hsilent

/-- **What opens new pages**: something that is no page, or something that the root page has. -/
def IsContext (root : Option String) (context : String) : Prop :=
  ∃ name rest, context = name ++ rest ∧ IsName name.toList ∧ (rest = "" ∨ IsPointed rest) ∧
    (isPageName name = true → root = some name)

theorem isContext_context : IsContext root "context" := by
  refine ⟨"context", "", rfl, ⟨by decide, by decide⟩, Or.inl rfl, fun hname => ?_⟩
  exact absurd hname (by decide)

/-- A line that declares a new page. -/
theorem renders_openPage {context : String} (hlead : isLead lead = true)
    (hnone : ∀ w ∈ namesIn lead.toList, isVariable (String.ofList w) = false)
    (hflush : lead.toList.head? ≠ some ' ') (hpage : isPageName page = true)
    (hsign : isSign sign = true) (hcontext : IsContext root context) (hrest : IsPointed rest) :
    Renders rename handler root (.openPage page) [lead ++ page ++ sign ++ context ++ rest] := by
  obtain ⟨name, more, rfl, hname, hmore, hroot⟩ := hcontext
  have hpointed : IsPointed (more ++ rest) := by
    rcases hmore with rfl | hmore
    · rwa [String.empty_append]
    · exact hmore.append rest
  have hline : lead ++ page ++ sign ++ (name ++ more) ++ rest =
      lead ++ page ++ sign ++ name ++ (more ++ rest) := by
    simp only [String.append_assoc]
  have hwritten : Written page [page] := written_singleton (by simp [isVariable, hpage])
  have hread := read_declare hlead hnone hflush hwritten hsign hname hpointed
  rw [← hline] at hread
  constructor
  · intro p hp
    simp only [calledIn_cons, hread, calledIn_nil, List.append_nil, Option.mem_toList] at hp
    split at hp
    · next hpageName =>
      obtain rfl := Option.some.inj hp
      exact Or.inr (hroot hpageName)
    · cases hp
  · intro p hp
    cases hp
  · simp [hread, Statement.vars]
  · intro p hp
    rw [outsideIn_cons, hread]
    simpa [Statement.pages] using hp
  · simp [hread, Statement.dialog?]

end

end Scribe.Program
