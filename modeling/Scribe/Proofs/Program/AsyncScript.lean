import Scribe.Proofs.Program.Naming
import Scribe.Proofs.Program.Python

/-!
# Scripts and asynchronous scripts

The two scripts of a plan have the same lines but for the words that await. What a line is – a
comment, a call, an assignment – follows from the statement that it belongs to, whichever script it
stands in (`Scribe.Program.Python.linesOf`), and so does the place of the word:

| line | in an asynchronous script |
|---|---|
| a comment, a handler for a dialog | the same |
| the head of a block that waits | `async` in front of `with` |
| a call | `await` in front of it |
| an assignment | `await` behind the equals sign |

`Scribe.Program.Python.lines_eq_scriptLines` says this of whole programs. Where names are
identifiers, what a line is can be read off its text, so that the asynchronous script follows from
the text of the other one (`Scribe.Program.Python.asyncScript_lines_eq_map`).
-/

namespace Scribe.Program.Python

/-! ### Lines -/

/-- **What a line of a script is.** -/
inductive LineForm where
  | comment (text : String)
  /-- A handler that answers the next dialog of a page. -/
  | registration (page : String) (dismiss : Bool)
  /-- The head of a block that waits. -/
  | waitHeader (page : String) (w : Wait)
  | call (op : Operation)
  | assignment (variableName expression : String)

namespace LineForm

/-- How a line is written in a script. -/
def text : LineForm → String
  | comment text => "# " ++ text
  | registration page dismiss =>
    let method := if dismiss then "dismiss" else "accept"
    s!"{page}.once(\"dialog\", lambda dialog: dialog.{method}())"
  | waitHeader page w => s!"with {page}.{expectation w}() as {infoOf w}:"
  | call op => operation op
  | assignment variableName expression => variableName ++ " = " ++ expression

/-- **How a line is written in an asynchronous script.** -/
def awaitedText : LineForm → String
  | comment text => (comment text).text
  | registration page dismiss => (registration page dismiss).text
  | waitHeader page w => "async " ++ (waitHeader page w).text
  | call op => "await " ++ (call op).text
  | assignment variableName expression => variableName ++ " = " ++ "await " ++ expression

end LineForm

/-- **A line of a script.** -/
structure Line where
  /-- In how many blocks it stands. -/
  depth : ℕ := 0
  /-- What it is. -/
  form : LineForm

/-- What a line is indented by, four spaces for a block. -/
def margin : ℕ → String
  | 0 => ""
  | depth + 1 => "    " ++ margin depth

namespace Line

/-- A line in a script. -/
def text (l : Line) : String :=
  margin l.depth ++ l.form.text

/-- **A line in an asynchronous script.** -/
def awaitedText (l : Line) : String :=
  margin l.depth ++ l.form.awaitedText

/-- A line in either script. -/
def textIn (awaits : Bool) : Line → String :=
  if awaits then awaitedText else text

/-- A line one block further inside. -/
def deeper (l : Line) : Line :=
  { l with depth := l.depth + 1 }

end Line

/-- Lines inside the blocks that wait, the first wait being the outermost. -/
def waitLines (page : String) : List Wait → List Line → List Line
  | [], inner => inner
  | w :: waits, inner =>
    ⟨0, .waitHeader page w⟩ :: (waitLines page waits inner).map Line.deeper ++
      [⟨0, .assignment (variableOf w) (infoOf w ++ ".value")⟩]

/-- **The lines of a statement.** -/
def linesOf : Statement → List Line
  | .comment text => [⟨0, .comment text⟩]
  | .openPage page => [⟨0, .assignment page "context.new_page()"⟩]
  | .perform op => [⟨0, .call op⟩]
  | .answerDialog page dismiss _ => [⟨0, .registration page dismiss⟩]
  | .performWaiting page waits op => waitLines page waits [⟨0, .call op⟩]
  | .wait page w => [⟨0, .assignment (variableOf w) s!"{page}.wait_for_event({eventOf w})"⟩]

/-- **The lines of a script** of actions: the line that opens the root page, if there is one, and
those of the actions. -/
def scriptLines (root : Option String) (actions : List Action) : List Line :=
  ((root.toList.map Statement.openPage ++ plan root actions).flatMap linesOf).map Line.deeper

/-! ### The lines of a statement -/

variable {awaits : Bool} {l : Line}

theorem textIn_deeper : l.deeper.textIn awaits = "    " ++ l.textIn awaits := by
  cases awaits with
  | false => exact String.append_assoc ..
  | true => exact String.append_assoc ..

/-- The first line of a statement. -/
theorem textIn_zero (f : LineForm) :
    Line.textIn awaits ⟨0, f⟩ = if awaits then f.awaitedText else f.text := by
  cases awaits with
  | false => exact String.empty_append
  | true => exact String.empty_append

/-- No line is empty. -/
theorem textIn_ne_empty : l.textIn awaits ≠ "" := by
  have hform (f : LineForm) : f.text ≠ "" ∧ f.awaitedText ≠ "" := by
    cases f with
    | call op =>
      obtain ⟨rest, _, heq, hrest, -⟩ := isCall_operation op
      obtain ⟨more, hmore⟩ := hrest.eq_cons
      have hcall : operation op ≠ "" := by
        intro hempty
        have hlist := congrArg String.toList (hempty.symm.trans (List.cons.inj heq).1)
        simp [hmore] at hlist
      simp [LineForm.text, LineForm.awaitedText, hcall]
    | _ => simp [LineForm.text, LineForm.awaitedText, toString]
  cases awaits with
  | false => simp [Line.textIn, Line.text, hform]
  | true => simp [Line.textIn, Line.awaitedText, hform]

/-- An indent takes lines one block further inside. -/
theorem indent_map_textIn (ls : List Line) :
    indent "    " (ls.map (Line.textIn awaits)) =
      (ls.map Line.deeper).map (Line.textIn awaits) := by
  rw [indent, List.map_map, List.map_map]
  refine List.map_congr_left fun l _ => ?_
  simp [textIn_deeper, textIn_ne_empty]

theorem textIn_call (op : Operation) :
    Line.textIn awaits ⟨0, .call op⟩ = awaiting awaits ++ operation op := by
  rw [textIn_zero]
  cases awaits with
  | false => exact String.empty_append.symm
  | true => rfl

theorem textIn_assignment (variableName expression : String) :
    Line.textIn awaits ⟨0, .assignment variableName expression⟩ =
      variableName ++ " = " ++ awaiting awaits ++ expression := by
  rw [textIn_zero]
  cases awaits with
  | false => exact congrArg (· ++ expression) String.append_empty.symm
  | true => rfl

theorem textIn_waitHeader (page : String) (w : Wait) :
    let keyword := if awaits then "async with" else "with"
    Line.textIn awaits ⟨0, .waitHeader page w⟩ =
      s!"{keyword} {page}.{expectation w}() as {infoOf w}:" := by
  dsimp only
  rw [textIn_zero]
  cases awaits with
  | false => rfl
  | true =>
    have hkeyword : "async with" ++ " " = "async " ++ "with " := by decide
    simp only [if_true, LineForm.awaitedText, LineForm.text, toString, hkeyword,
      String.append_assoc]

/-- Blocks that wait, in either script. -/
theorem nest_eq_map (page : String) (waits : List Wait) (inner : List Line) :
    nest awaits page waits (inner.map (Line.textIn awaits)) =
      (waitLines page waits inner).map (Line.textIn awaits) := by
  induction waits with
  | nil => rfl
  | cons w waits ih =>
    rw [nest, ih, indent_map_textIn, waitLines, List.map_append, List.map_cons, textIn_waitHeader,
      List.map_singleton, textIn_assignment]
    simp only [infoOf, toString, String.append_assoc]

/-- **The lines of a statement** in either script. -/
theorem statement_eq_map (st : Statement) :
    statement awaits "context" st = (linesOf st).map (Line.textIn awaits) := by
  cases st with
  | comment text =>
    have hcomment : Line.textIn awaits ⟨0, .comment text⟩ = "# " ++ text := by
      rw [textIn_zero]
      exact ite_self _
    exact congrArg (fun line => [line]) hcomment.symm
  | openPage page =>
    rw [linesOf, List.map_singleton, textIn_assignment]
    simp only [statement, toString, String.append_assoc]
    rfl
  | perform op => exact congrArg (fun line => [line]) (textIn_call op).symm
  | answerDialog page dismiss number =>
    have hhandler : Line.textIn awaits ⟨0, .registration page dismiss⟩ =
        (LineForm.registration page dismiss).text := by
      rw [textIn_zero]
      exact ite_self _
    exact congrArg (fun line => [line]) hhandler.symm
  | performWaiting page waits op =>
    rw [linesOf, ← nest_eq_map, List.map_singleton, textIn_call, statement]
  | wait page w =>
    rw [linesOf, List.map_singleton, textIn_assignment]
    simp only [statement, toString, String.append_assoc]

/-! ### The lines of a program -/

/-- The line that opens the root page, and the lines of the actions. -/
theorem rootLines_append (awaits : Bool) (root : Option String) (actions : List Action) :
    rootLines awaits root ++
        indent "    " ((plan root actions).flatMap (statement awaits "context")) =
      (scriptLines root actions).map (Line.textIn awaits) := by
  have hstatement : statement awaits "context" = fun st => (linesOf st).map (Line.textIn awaits) :=
    funext statement_eq_map
  have hlines (sts : List Statement) : indent "    " (sts.flatMap (statement awaits "context")) =
      ((sts.flatMap linesOf).map Line.deeper).map (Line.textIn awaits) := by
    rw [← indent_map_textIn, List.map_flatMap, hstatement]
  have hroot : root.toList.flatMap (fun page => statement awaits "context" (.openPage page)) =
      (root.toList.map Statement.openPage).flatMap (statement awaits "context") :=
    (List.flatMap_map ..).symm
  rw [rootLines, hroot, hlines, hlines, ← List.map_append, ← List.map_append, ← List.flatMap_append,
    scriptLines]

theorem body_of_emptyBody_eq_none (l : Language) (hempty : l.emptyBody = none)
    (actions : List Action) (aliases : AliasTable) :
    l.body actions aliases = (plan aliases.root actions).flatMap (l.statement aliases.root) := by
  rw [Language.body, hempty]
  split
  · next hnil => exact hnil.symm
  · rfl

/-- The lines of a script, between a header and a footer that do not depend on the actions. -/
theorem lines_script (actions : List Action) (aliases : AliasTable) :
    script.lines actions aliases =
      script.header none ++ (scriptLines aliases.root actions).map Line.text ++ script.footer := by
  have hheader : script.header aliases.root = script.header none ++ rootLines false aliases.root :=
    rfl
  rw [Language.lines, body_of_emptyBody_eq_none script rfl, hheader,
    List.append_assoc _ (rootLines ..)]
  exact congrArg (script.header none ++ · ++ script.footer) (rootLines_append false ..)

/-- The lines of an asynchronous script. -/
theorem lines_asyncScript (actions : List Action) (aliases : AliasTable) :
    asyncScript.lines actions aliases =
      asyncScript.header none ++ (scriptLines aliases.root actions).map Line.awaitedText ++
        asyncScript.footer := by
  have hheader : asyncScript.header aliases.root =
      asyncScript.header none ++ rootLines true aliases.root :=
    rfl
  rw [Language.lines, body_of_emptyBody_eq_none asyncScript rfl, hheader,
    List.append_assoc _ (rootLines ..)]
  exact congrArg (asyncScript.header none ++ · ++ asyncScript.footer) (rootLines_append true ..)

/-- **Both scripts have the same lines but for the words that await**: behind a header and in front
of a footer that do not depend on the actions, each line of the one stands in the other as its form
says. -/
theorem lines_eq_scriptLines (actions : List Action) (aliases : AliasTable) :
    script.lines actions aliases =
        script.header none ++ (scriptLines aliases.root actions).map Line.text ++ script.footer ∧
      asyncScript.lines actions aliases =
        asyncScript.header none ++ (scriptLines aliases.root actions).map Line.awaitedText ++
          asyncScript.footer :=
  ⟨lines_script actions aliases, lines_asyncScript actions aliases⟩

/-! ### Reading the form of a line off its text -/

/-- The word that awaits put into a line, of which the indent, the first name and what is behind it
are told apart. What is behind the name tells what the line is. -/
def putAwait (margin name rest : String) : String :=
  if " = ".toList.isPrefixOf rest.toList then
    margin ++ name ++ " = " ++ "await " ++ String.ofList (rest.toList.drop 3)
  else if name == "with" && rest.toList.head? == some ' ' then margin ++ "async " ++ (name ++ rest)
  else if rest.toList.head? == some '#' || ".once(".toList.isPrefixOf rest.toList then
    margin ++ (name ++ rest)
  else margin ++ "await " ++ (name ++ rest)

/-- **A line of an asynchronous script**, as it follows from the text of the line of a script. -/
def awaited (line : String) : String :=
  let body := line.toList.dropWhile (· == ' ')
  putAwait (String.ofList (line.toList.takeWhile (· == ' ')))
    (String.ofList (body.takeWhile isNameChar)) (String.ofList (body.dropWhile isNameChar))

/-- A text is taken apart where a class of characters ends. -/
theorem takeWhile_dropWhile_append {p : Char → Bool} {a b : List Char} (ha : ∀ c ∈ a, p c = true)
    (hb : b.head?.all (!p ·) = true) :
    (a ++ b).takeWhile p = a ∧ (a ++ b).dropWhile p = b := by
  rw [List.takeWhile_append_of_pos ha, List.dropWhile_append_of_pos ha]
  cases b with
  | nil => simp
  | cons c rest =>
    have hc : p c = false := by simpa using hb
    simp [hc]

theorem margin_spaces (depth : ℕ) : ∀ c ∈ (margin depth).toList, c = ' ' := by
  have hindent : ∀ c ∈ "    ".toList, c = ' ' := by simp
  induction depth with
  | zero => exact fun c hc => nomatch hc
  | succ depth ih =>
    rw [margin, String.toList_append]
    exact List.forall_mem_append.mpr ⟨hindent, ih⟩

/-- A line whose first name ends in front of a given rest. -/
theorem awaited_append (depth : ℕ) {name : String} (hname : IsNameText name.toList) (rest : String)
    (hrest : rest.toList.head?.all (!isNameChar ·) = true)
    (hflush : (name ++ rest).toList.head?.all (· != ' ') = true) :
    awaited (margin depth ++ (name ++ rest)) = putAwait (margin depth) name rest := by
  have hspaces : ∀ c ∈ (margin depth).toList, (c == ' ') = true :=
    fun c hc => beq_iff_eq.mpr (margin_spaces depth c hc)
  obtain ⟨hmargin, hbody⟩ := takeWhile_dropWhile_append hspaces hflush
  obtain ⟨hfirst, hbehind⟩ := takeWhile_dropWhile_append hname hrest
  rw [awaited, String.toList_append, hmargin, hbody, String.toList_append, hfirst, hbehind]
  simp only [String.ofList_toList]

/-! ### Lines with identifiers for names -/

/-- The name at the beginning of a line is an identifier. -/
def LineForm.HasNames : LineForm → Prop
  | .comment _ => True
  | .registration page _ | .waitHeader page _ => isIdentifier page = true
  | .call op => isIdentifier op.page = true
  | .assignment variableName _ => isIdentifier variableName = true

theorem exists_cons_of_isIdentifier {name : String} (h : isIdentifier name = true) :
    ∃ c more, name.toList = c :: more ∧ isNameChar c = true := by
  have hchars := isNameText_of_isIdentifier h
  rw [isIdentifier] at h
  cases hlist : name.toList with
  | nil => simp [hlist] at h
  | cons c more => exact ⟨c, more, rfl, hchars c (by simp [hlist])⟩

/-- A line that begins with an identifier. -/
theorem awaited_text_of_identifier {depth : ℕ} {f : LineForm} {name : String}
    (hname : isIdentifier name = true) (rest : String) (htext : f.text = name ++ rest)
    (hrest : rest.toList.head?.all (!isNameChar ·) = true)
    (hput : ∀ margin, putAwait margin name rest = margin ++ f.awaitedText) :
    awaited (Line.text ⟨depth, f⟩) = Line.awaitedText ⟨depth, f⟩ := by
  have hflush : (name ++ rest).toList.head?.all (· != ' ') = true := by
    obtain ⟨c, more, hlist, hc⟩ := exists_cons_of_isIdentifier hname
    have hspace : c ≠ ' ' := by
      rintro rfl
      exact absurd hc (by decide)
    simp [hlist, hspace]
  rw [Line.text, htext, awaited_append depth (isNameText_of_isIdentifier hname) rest hrest hflush,
    hput, Line.awaitedText]

/-- A method that is not the one that registers handlers. -/
def isMethod (text : String) : Bool :=
  text.toList.head?.any (· != 'o')

theorem isMethod_append {text : String} (h : isMethod text = true) (more : String) :
    isMethod (text ++ more) = true := by
  rw [isMethod] at h ⊢
  cases hlist : text.toList with
  | nil => simp [hlist] at h
  | cons c rest => simpa [hlist] using h

theorem isMethod_selectorCall (s : Selector) : isMethod (selectorCall s) = true := by
  have hcall {name : String} (h : isMethod name = true) (argument : String) :
      isMethod (name ++ argument ++ ")") = true :=
    isMethod_append (isMethod_append h _) _
  cases s with
  | _ => exact hcall (by decide) _

/-- **An operation** is a call of such a method on its page. -/
theorem exists_operation_eq (op : Operation) :
    ∃ method, operation op = op.page ++ "." ++ method ∧ isMethod method = true := by
  have happend {call page : String} (more : String)
      (h : ∃ method, call = page ++ "." ++ method ∧ isMethod method = true) :
      ∃ method, call ++ more = page ++ "." ++ method ∧ isMethod method = true := by
    obtain ⟨method, rfl, hmethod⟩ := h
    exact ⟨method ++ more, String.append_assoc .., isMethod_append hmethod more⟩
  have hlocator (t : Target) :
      ∃ method, locator t = t.page ++ "." ++ method ∧ isMethod method = true := by
    have hsteps : ∀ step ∈ t.frames.map (fun css => s!"frame_locator({literal css})") ++
        [selectorCall t.selector], isMethod step = true := by
      refine List.forall_mem_append.mpr ⟨List.forall_mem_map.mpr fun css _ => ?_,
        List.forall_mem_singleton.mpr (isMethod_selectorCall _)⟩
      exact isMethod_append (isMethod_append (by decide) _) _
    obtain ⟨step, steps, heq⟩ := List.exists_cons_of_ne_nil (List.append_ne_nil_of_right_ne_nil
      (t.frames.map fun css => s!"frame_locator({literal css})")
      (List.cons_ne_nil (selectorCall t.selector) []))
    have hstep : isMethod step = true := hsteps step (by simp [heq])
    refine ⟨".".intercalate (step :: steps), ?_, ?_⟩
    · rw [locator, List.cons_append, heq, String.intercalate_cons_cons]
    · cases steps with
      | nil => simpa using hstep
      | cons next steps =>
        rw [String.intercalate_cons_cons]
        exact isMethod_append (isMethod_append hstep _) _
  cases op with
  | close page =>
    refine ⟨"close()", ?_, by decide⟩
    have hclose : ".close()" = "." ++ "close()" := by decide
    simp only [operation, Operation.page, toString, hclose, String.append_assoc]
  | navigate page url =>
    refine ⟨"goto(" ++ (literal url ++ ")"), ?_, isMethod_append (by decide) _⟩
    have hgoto : ".goto(" = "." ++ "goto(" := by decide
    simp only [operation, Operation.page, toString, hgoto, String.append_assoc]
  | click t button count modifiers =>
    have hclick (method options : String) : ∃ call, s!"{locator t}.{method}({options})" =
        t.page ++ "." ++ call ∧ isMethod call = true :=
      happend _ (happend _ (happend _ (happend _ (happend _ (hlocator t)))))
    exact hclick _ _
  | fill t text => exact happend _ (happend _ (happend _ (hlocator t)))
  | check t on => exact happend _ (hlocator t)
  | press t key => exact happend _ (happend _ (happend _ (hlocator t)))
  | setFiles t files => exact happend _ (happend _ (happend _ (hlocator t)))
  | select t options => exact happend _ (happend _ (happend _ (hlocator t)))

/-- **A line read off its text** is the line of the asynchronous script. -/
theorem awaited_text (hl : l.form.HasNames) : awaited l.text = l.awaitedText := by
  obtain ⟨depth, form⟩ := l
  cases form with
  | comment text =>
    have hnone : IsNameText "".toList := fun c hc => nomatch hc
    have hparts := awaited_append depth hnone ("# " ++ text) (by simp; decide) (by simp)
    rw [String.empty_append] at hparts
    rw [Line.text, Line.awaitedText, LineForm.awaitedText, LineForm.text, hparts]
    simp [putAwait]
  | registration page dismiss =>
    have hmethod : ".once(\"dialog\", lambda dialog: dialog." =
        ".once(" ++ "\"dialog\", lambda dialog: dialog." := by
      decide
    refine awaited_text_of_identifier hl (".once(" ++ ("\"dialog\", lambda dialog: dialog." ++
      ((if dismiss then "dismiss" else "accept") ++ "())"))) ?_ (by simp; decide) fun margin => ?_
    · simp only [LineForm.text, toString, hmethod, String.append_assoc]
    · simp only [LineForm.awaitedText, LineForm.text, toString, hmethod, String.append_assoc]
      simp [putAwait]
  | waitHeader page w =>
    have hwith : "with " = "with" ++ " " := by decide
    obtain ⟨c, more, hlist, hc⟩ := exists_cons_of_isIdentifier hl
    have hsign : c ≠ '=' := by
      rintro rfl
      exact absurd hc (by decide)
    have hword : isIdentifier "with" = true := by decide
    refine awaited_text_of_identifier hword
      (" " ++ (page ++ ("." ++ (expectation w ++ ("() as " ++ (infoOf w ++ ":"))))))
      ?_ (by simp; decide) fun margin => ?_
    · simp only [LineForm.text, toString, hwith, String.append_assoc]
    · simp only [LineForm.awaitedText, LineForm.text, toString, hwith, String.append_assoc]
      simp [putAwait, hlist, hsign.symm, String.append_assoc]
  | call op =>
    obtain ⟨method, heq, hmethod⟩ := exists_operation_eq op
    refine awaited_text_of_identifier hl ("." ++ method) (heq.trans (String.append_assoc ..))
      (by simp; decide) fun margin => ?_
    have hother : ¬['o', 'n', 'c', 'e', '('] <+: method.toList := by
      rintro ⟨more, hmore⟩
      simp [isMethod, ← hmore] at hmethod
    rw [LineForm.awaitedText, LineForm.text, heq]
    simp [putAwait, hother, String.append_assoc]
  | assignment variableName expression =>
    refine awaited_text_of_identifier hl (" = " ++ expression) (String.append_assoc ..)
      (by simp; decide) fun margin => ?_
    simp [putAwait, LineForm.awaitedText, String.append_assoc]

/-- The lines of a statement begin with identifiers if the names in it are identifiers. -/
theorem hasNames_linesOf {st : Statement} (hst : st.HasNames) :
    ∀ l ∈ linesOf st, l.form.HasNames := by
  have hpage {op : Operation} (hop : op.HasNames) : isIdentifier op.page = true := by
    cases op with
    | close page => exact hop
    | navigate page url => exact hop
    | click t button count modifiers => exact hop.1.page
    | fill t text => exact hop.page
    | check t on => exact hop.page
    | press t key => exact hop.page
    | setFiles t files => exact hop.page
    | select t options => exact hop.page
  have hwait {w : Wait} (hw : w.HasNames) : isIdentifier (variableOf w) = true := by
    cases w with
    | popup v => exact hw
    | download v => exact hw
  cases st with
  | comment text => exact List.forall_mem_singleton.mpr trivial
  | openPage page => exact List.forall_mem_singleton.mpr hst
  | perform op => exact List.forall_mem_singleton.mpr (hpage hst)
  | answerDialog page dismiss number => exact List.forall_mem_singleton.mpr hst
  | performWaiting page waits op =>
    obtain ⟨hname, hwaits, hop⟩ := hst
    rw [linesOf]
    induction waits with
    | nil => exact List.forall_mem_singleton.mpr (hpage hop)
    | cons w waits ih =>
      have hinner := ih fun w' hw' => hwaits w' (List.mem_cons_of_mem _ hw')
      exact List.forall_mem_append.mpr ⟨List.forall_mem_cons.mpr
        ⟨hname, List.forall_mem_map.mpr hinner⟩,
          List.forall_mem_singleton.mpr (hwait (hwaits w List.mem_cons_self))⟩
  | wait page w => exact List.forall_mem_singleton.mpr (hwait hst.2)

/-- **The asynchronous script follows from the text of the script**, line by line, if names are
identifiers. -/
theorem asyncScript_lines_eq_map {actions : List Action} {aliases : AliasTable}
    (hactions : ∀ a ∈ actions, a.HasNames) (hroot : ∀ r ∈ aliases.root, isIdentifier r = true) :
    ∃ ls, script.lines actions aliases = script.header none ++ ls ++ script.footer ∧
      asyncScript.lines actions aliases =
        asyncScript.header none ++ ls.map awaited ++ asyncScript.footer := by
  have hplain := lines_script actions aliases
  have hawaits := lines_asyncScript actions aliases
  refine ⟨(scriptLines aliases.root actions).map Line.text, hplain, ?_⟩
  have hnames : ∀ l ∈ scriptLines aliases.root actions, l.form.HasNames := by
    refine List.forall_mem_map.mpr fun l hl => ?_
    obtain ⟨st, hst, hl⟩ := List.mem_flatMap.mp hl
    refine hasNames_linesOf ?_ l hl
    rcases List.mem_append.mp hst with hst | hst
    · obtain ⟨r, hr, rfl⟩ := List.mem_map.mp hst
      exact hroot r (Option.mem_toList.mp hr)
    · exact hasNames_plan hactions aliases.root st hst
  have hawaited : (scriptLines aliases.root actions).map (awaited ∘ Line.text) =
      (scriptLines aliases.root actions).map Line.awaitedText :=
    List.map_congr_left fun l hl => Function.comp_apply.trans (awaited_text (hnames l hl))
  rw [hawaits, List.map_map, hawaited]

end Scribe.Program.Python
