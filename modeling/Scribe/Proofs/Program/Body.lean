import Scribe.Proofs.Program.Python
import Scribe.Proofs.Program.Remarks

/-!
# The body of a test function

A function of Python has to have a statement, and a remark is none. Where a plan comes to nothing
at all, `pass` is written for it. A plan that comes to remarks alone is not nothing, so whether the
body has code depends on the actions (`Scribe.Program.Python.hasCode_body`): it does if one of them
is performed (`Scribe.Action.isPerformed`), and if none of them does as much as leave a remark
(`Scribe.Action.leavesRemark`). Otherwise it has none.

Names are written as they are given. One whose last line begins a comment hides the code behind it,
so for a performed action to make code its names have to show (`Scribe.Action.ShowsNames`).
-/

namespace Scribe

open Text Program

/-! ### What actions leave in a program -/

/-- Whether something is waited for on account of a signal. -/
def Signal.isAwaited (s : Signal) : Bool :=
  s.kind == .popup || s.kind == .download

namespace Action

/-- **Whether there is something to do**: an address to go to, an element to act on, a key to
press. -/
def isPossible (a : Action) : Bool :=
  match a.kind with
  | .navigate => a.url.isSome
  | .click | .fill | .check | .uncheck | .setInputFiles | .selectOption => a.selector.isSome
  | .press => a.selector.isSome && a.key.any (!·.isEmpty)
  | _ => false

/-- Whether an action is there to do something of its own, and not to open or close a page or to
stand for a signal. -/
def isAttempted (a : Action) : Bool :=
  match a.kind with
  | .openPage | .closePage | .handleDialog | .waitForPopup | .waitForDownload => false
  | _ => true

/-- **Whether a program performs an action**, or a part of it. The root page is not opened, but it
may be led to an address. -/
def isPerformed (root : Option String) (a : Action) : Bool :=
  match a.kind with
  | .openPage => some a.page != root || a.url.any fun url => !(url.isEmpty || url == "about:blank")
  | .closePage => true
  | .handleDialog => (a.signal? .dialog).isSome
  | .waitForPopup | .waitForDownload => (a.signal? .dialog).isSome || a.signals.any (·.isAwaited)
  | _ => (a.signal? .dialog).isSome || a.isPossible

/-- **Whether an action leaves a remark**: that something expected did not occur, or that there is
nothing that could be done. -/
def leavesRemark (a : Action) : Bool :=
  !a.incompleteSignals.isEmpty || a.isAttempted && !a.isPossible

/-- **The names in an action show** the code behind them: its page, and the variables that receive
its popups and downloads. -/
structure ShowsNames (a : Action) : Prop where
  page : Dialect.python.shows a.page.toList = true
  popups : ∀ s ∈ a.signals, ∀ v ∈ s.popup, Dialect.python.shows v.toList = true
  downloads : ∀ s ∈ a.signals, ∀ v ∈ s.download, Dialect.python.shows v.toList = true

/-- The kind of an action is on one line, if nothing is known about it. -/
def HasPlainKind (a : Action) : Prop :=
  ∀ name, a.kind = .other name → ∀ c ∈ name.toList, c ∉ Dialect.python.lineEnds

end Action

namespace Program

/-- Whether a statement is a remark. -/
def Statement.isComment : Statement → Bool
  | .comment _ => true
  | _ => false

section

variable (text page : String) (dismiss : Bool) (number : ℕ) (waits : List Wait) (w : Wait)
  (op : Operation)

@[simp] theorem isComment_comment : (Statement.comment text).isComment = true := rfl

@[simp] theorem isComment_openPage : (Statement.openPage page).isComment = false := rfl

@[simp] theorem isComment_perform : (Statement.perform op).isComment = false := rfl

@[simp] theorem isComment_answerDialog :
    (Statement.answerDialog page dismiss number).isComment = false := rfl

@[simp] theorem isComment_performWaiting :
    (Statement.performWaiting page waits op).isComment = false := rfl

@[simp] theorem isComment_wait : (Statement.wait page w).isComment = false := rfl

@[simp] theorem isComment_missingComment (k : SignalKind) : (missingComment k).isComment = true :=
  rfl

end

/-! ### Plans of such actions -/

section

variable {a : Action} {root : Option String}

theorem isSome_operation? (a : Action) : (operation? a).isSome = a.isPossible := by
  rw [operation?, Action.isPossible]
  cases hkind : a.kind with
  | navigate => cases a.url <;> cases a.selector <;> simp [elementOperation?, hkind]
  | press =>
    cases a.selector <;> cases hkey : a.key <;> simp [elementOperation?, hkind, hkey]
    split <;> simp_all
  | _ => cases a.selector <;> simp [elementOperation?, hkind]

theorem isEmpty_waitsOf (a : Action) : (waitsOf a).isEmpty = !a.signals.any (·.isAwaited) := by
  have hkinds (s : Signal) : (s.kind = .popup → waitOf? s ≠ none) ∧
      (s.kind = .download → waitOf? s ≠ none) := by
    constructor <;> intro hkind <;> simp [waitOf?, hkind]
  rw [waitsOf, Bool.eq_iff_iff]
  simp only [List.isEmpty_iff, List.append_eq_nil_iff, List.filterMap_eq_nil_iff, List.mem_filter,
    beq_iff_eq, and_imp, Bool.not_eq_true', List.any_eq_false, Signal.isAwaited, Bool.or_eq_true,
    not_or]
  constructor
  · exact fun h s hs =>
      ⟨fun hk => (hkinds s).1 hk (h.1 s hs hk), fun hk => (hkinds s).2 hk (h.2 s hs hk)⟩
  · exact fun h => ⟨fun s hs hk => absurd hk (h s hs).1, fun s hs hk => absurd hk (h s hs).2⟩

/-- What can be done is one statement, and no remark. -/
theorem performStatements_of_isPossible (h : a.isPossible = true) :
    ∃ st, performStatements a = [st] ∧ st.isComment = false := by
  obtain ⟨op, hop⟩ := Option.isSome_iff_exists.mp ((isSome_operation? a).trans h)
  rw [performStatements, hop]
  cases hkind : a.kind with
  | handleDialog | waitForPopup | waitForDownload => simp [Action.isPossible, hkind] at h
  | _ => cases waitsOf a <;> exact ⟨_, rfl, rfl⟩

/-- What cannot be done is one remark. -/
theorem performStatements_of_not_isPossible (hattempted : a.isAttempted = true)
    (h : a.isPossible = false) :
    performStatements a = [.comment s!"unsupported action: {a.kind.name}"] := by
  have hnone : operation? a = none := by
    rwa [← Option.not_isSome_iff_eq_none, isSome_operation?, Bool.not_eq_true]
  rw [performStatements, hnone]
  cases hkind : a.kind with
  | handleDialog | waitForPopup | waitForDownload => simp [Action.isAttempted, hkind] at hattempted
  | _ => rfl

/-- The statements that open a page are no remarks. -/
theorem any_openStatements (root : Option String) (a : Action) (b : Bool) :
    ((openStatements root a).any fun st => st.isComment == b) =
      (!b && (some a.page != root ||
        a.url.any fun url => !(url.isEmpty || url == "about:blank"))) := by
  rw [openStatements, List.any_append, Bool.and_or_distrib_left]
  congr 1
  · cases hroot : some a.page == root <;> cases b <;> simp [bne, hroot]
  · cases a.url with
    | none => simp
    | some url =>
      change ((if url.isEmpty || url == "about:blank" then []
        else [Statement.perform (.navigate a.page url)]).any fun st => st.isComment == b) =
          (!b && !(url.isEmpty || url == "about:blank"))
      generalize (url.isEmpty || url == "about:blank") = blank
      cases blank <;> cases b <;> simp

/-- Nor are those that wait. -/
theorem any_waits (a : Action) (b : Bool) :
    (((waitsOf a).map (Statement.wait a.page)).any fun st => st.isComment == b) =
      (!b && a.signals.any (·.isAwaited)) := by
  have hempty := isEmpty_waitsOf a
  cases hwaits : waitsOf a <;> rw [hwaits] at hempty <;> cases b <;>
    simp_all

/-- **What an action leaves shows in its statements**: whether there are remarks, and whether there
is anything else. -/
theorem any_statementsOf (root : Option String) (handlers : ℕ) (a : Action) (b : Bool) :
    ((statementsOf root handlers a).1.any fun st => st.isComment == b) =
      bif b then a.leavesRemark else a.isPerformed root := by
  have hmissing : ((a.incompleteSignals.map missingComment).any fun st => st.isComment == b) =
      (b && !a.incompleteSignals.isEmpty) := by
    cases a.incompleteSignals <;> cases b <;> simp
  have hdone (h : a.isAttempted = true) :
      ((performStatements a).any fun st => st.isComment == b) = (a.isPossible == !b) := by
    cases hpossible : a.isPossible with
    | true =>
      obtain ⟨st, hst, hcomment⟩ := performStatements_of_isPossible hpossible
      simp [hst, hcomment]
    | false => simp [performStatements_of_not_isPossible h hpossible]
  rw [statementsOf, Action.isPerformed, Action.leavesRemark, Action.isAttempted]
  cases hkind : a.kind with
  | openPage =>
    rw [List.any_append, hmissing, any_openStatements]
    cases b <;> simp
  | closePage =>
    rw [List.any_append, hmissing]
    cases b <;> simp
  | handleDialog =>
    have hnothing : performStatements a = [] := by rw [performStatements, hkind]
    cases a.signal? .dialog <;> simp only [List.any_append, hmissing, List.any_cons, hnothing] <;>
      cases b <;> simp
  | waitForPopup | waitForDownload =>
    have hwaiting : performStatements a = (waitsOf a).map (.wait a.page) := by
      rw [performStatements, hkind]
    cases a.signal? .dialog <;>
      simp only [List.any_append, hmissing, List.any_cons, hwaiting, any_waits] <;>
      cases b <;> simp
  | _ =>
    have hperform := hdone (by rw [Action.isAttempted, hkind])
    cases a.signal? .dialog <;> simp only [List.any_append, hmissing, List.any_cons, hperform] <;>
      cases b <;> simp

/-- **What actions leave shows in a plan.** -/
theorem any_planFrom (root : Option String) (handlers : ℕ) (actions : List Action) (b : Bool) :
    ((planFrom root handlers actions).any fun st => st.isComment == b) =
      actions.any fun a => bif b then a.leavesRemark else a.isPerformed root := by
  induction actions generalizing handlers with
  | nil => rfl
  | cons a rest ih => rw [planFrom_cons, List.any_append, any_statementsOf, ih, List.any_cons]

end

/-! ### Names that lines begin with -/

/-- The name that the lines of a statement begin with. -/
def Statement.leading? : Statement → Option String
  | .comment _ | .performWaiting _ (_ :: _) _ => none
  | .openPage page | .answerDialog page _ _ => some page
  | .perform op | .performWaiting _ [] op => some op.page
  | .wait _ w => some (Python.variableOf w)

section

variable {a : Action} {root : Option String}

/-- **What an action leaves**: remarks on what it missed, one if nothing could be done for it, and
statements whose lines begin with its page or with a variable that it declares. -/
inductive Left (a : Action) : Statement → Prop
  | missed (k : SignalKind) : Left a (missingComment k)
  | refused : Left a (.comment s!"unsupported action: {a.kind.name}")
  | performed {st : Statement} (comment : st.isComment = false)
      (leading : ∀ name ∈ st.leading?,
        name = a.page ∨ ∃ w ∈ waitsOf a, name = Python.variableOf w) :
      Left a st

/-- A statement whose lines begin with the page of the action. -/
theorem left_of_page {st : Statement} (hcomment : st.isComment = false)
    (hleading : st.leading? = some a.page) : Left a st :=
  .performed hcomment fun _ hname => .inl (Option.some.inj (hname.symm.trans hleading))

theorem page_operation? {op : Operation} (h : operation? a = some op) : op.page = a.page := by
  rw [operation?] at h
  split at h
  · obtain rfl := Option.some.inj h
    rfl
  · obtain ⟨selector, -, h⟩ := Option.bind_eq_some_iff.mp h
    have hpage (target : Target) (h : elementOperation? a target = some op) :
        op.page = target.page := by
      cases hkind : a.kind <;>
        simp only [elementOperation?, hkind, reduceCtorEq, Option.some.injEq] at h
      case press =>
        split at h
        · split at h
          · cases h
          · obtain rfl := Option.some.inj h
            rfl
        · cases h
      all_goals
        obtain rfl := h
        rfl
    exact hpage _ h

theorem left_performStatements : ∀ st ∈ performStatements a, Left a st := by
  have hwait : ∀ st ∈ (waitsOf a).map (.wait a.page), Left a st := by
    intro st hst
    obtain ⟨w, hw, rfl⟩ := List.mem_map.mp hst
    refine .performed rfl fun name hname => .inr ⟨w, hw, (Option.some.inj hname).symm⟩
  rw [performStatements]
  split
  · simp
  · exact hwait
  · exact hwait
  · split
    · exact List.forall_mem_singleton.mpr .refused
    · next op hop =>
      split
      · exact List.forall_mem_singleton.mpr
          (left_of_page rfl (congrArg some (page_operation? hop)))
      · next hwaits =>
        obtain ⟨w, waits, hcons⟩ := List.exists_cons_of_ne_nil hwaits
        refine List.forall_mem_singleton.mpr (.performed rfl fun name hname => ?_)
        rw [hcons] at hname
        cases hname

/-- **The statements of an action** are what it leaves. -/
theorem left_statementsOf (root : Option String) (handlers : ℕ) :
    ∀ st ∈ (statementsOf root handlers a).1, Left a st := by
  have hmissed : ∀ st ∈ a.incompleteSignals.map missingComment, Left a st := by
    intro st hst
    obtain ⟨k, -, rfl⟩ := List.mem_map.mp hst
    exact .missed k
  rw [statementsOf]
  split
  · obtain ⟨visits, hopen, hvisits⟩ := openStatements_eq root a
    rw [hopen, List.forall_mem_append, List.forall_mem_append]
    refine ⟨hmissed, ?_, ?_⟩
    · split
      · simp
      · exact List.forall_mem_singleton.mpr (left_of_page rfl rfl)
    · rcases hvisits with rfl | ⟨url, rfl⟩
      · simp
      · exact List.forall_mem_singleton.mpr (left_of_page rfl rfl)
  · rw [List.forall_mem_append, List.forall_mem_singleton]
    exact ⟨hmissed, left_of_page rfl rfl⟩
  · split
    · rw [List.forall_mem_append, List.forall_mem_cons]
      exact ⟨hmissed, left_of_page rfl rfl, left_performStatements⟩
    · rw [List.forall_mem_append]
      exact ⟨hmissed, left_performStatements⟩

/-- What an action leaves begins with a name that shows, if its names do. -/
theorem Left.shows {st : Statement} (h : Left a st) (ha : a.ShowsNames) :
    ∀ name ∈ st.leading?, Dialect.python.shows name.toList = true := by
  have hvariable {w : Wait} (hw : w ∈ waitsOf a) :
      Dialect.python.shows (Python.variableOf w).toList = true := by
    have hdefaults : Dialect.python.shows "popup".toList = true ∧
        Dialect.python.shows "download".toList = true := by
      decide +kernel
    obtain ⟨s, hs, rfl | rfl⟩ := exists_signal_of_mem_waitsOf hw
    · exact nonEmptyOr_of hdefaults.1 (ha.popups s hs)
    · exact nonEmptyOr_of hdefaults.2 (ha.downloads s hs)
  intro name hname
  cases h with
  | missed | refused => cases hname
  | performed _ hleading =>
    rcases hleading name hname with rfl | ⟨w, hw, rfl⟩
    · exact ha.page
    · exact hvariable hw

/-- The remarks that an action leaves are on one line, if its kind is. -/
theorem Left.oneLine {st : Statement} {text : String} (h : Left a st) (hst : st = .comment text)
    (ha : a.HasPlainKind) : ∀ c ∈ text.toList, c ∉ Dialect.python.lineEnds := by
  cases h with
  | missed k =>
    intro c hc
    rw [← Statement.comment.inj hst] at hc
    exact (ne_of_isPlainText (hasNames_missingComment k) hc).1
  | refused =>
    have hkind : ∀ c ∈ a.kind.name.toList, c ∉ Dialect.python.lineEnds := by
      cases hk : a.kind with
      | other name => exact ha name hk
      | _ => exact fun c hc => (ne_of_isPlainText (isPlainText_given rfl rfl) hc).1
    have hwords : isPlainText "unsupported action: " = true := isPlainText_given rfl rfl
    intro c hc
    rw [← Statement.comment.inj hst] at hc
    rcases List.mem_append.mp (String.toList_append ▸ hc) with hc | hc
    · exact (ne_of_isPlainText hwords hc).1
    · exact hkind c hc
  | performed hcomment =>
    rw [hst] at hcomment
    cases hcomment

end

/-! ### Lines of Python -/

namespace Python

/-- A line that begins with a name is code, if the name shows and a sign of code follows. -/
theorem hasCode_of_name {name sign line : List Char} (hname : Dialect.python.shows name = true)
    (hsign : sign ∈ [['.'], [' ', '='], ['w']]) (hline : name ++ sign <+: line) :
    Dialect.python.HasCode (line ++ ['\n']) := by
  have hsigns : ∀ sign ∈ [['.'], [' ', '='], ['w']], ∃ gap c, sign = gap ++ [c] ∧
      (∀ x ∈ gap, Dialect.python.isMargin x = true ∧ x ∉ Dialect.python.commentMark ∧
        x ∉ Dialect.python.lineEnds) ∧
      Dialect.python.isMargin c = false ∧ c ∉ Dialect.python.commentMark ∧
        c ∉ Dialect.python.lineEnds := by
    rw [List.forall_mem_cons, List.forall_mem_cons, List.forall_mem_singleton]
    refine ⟨⟨[], '.', ?_⟩, ⟨[' '], '=', ?_⟩, ⟨[], 'w', ?_⟩⟩ <;>
      simp [Dialect.isMargin, Dialect.commentMark, Dialect.lineEnds]
  obtain ⟨gap, c, rfl, hgap, hmargin, hmark, hends⟩ := hsigns sign hsign
  obtain ⟨rest, rfl⟩ := hline
  rw [List.append_assoc, List.append_assoc, List.append_assoc, List.singleton_append]
  exact Dialect.hasCode_of_shows (by decide) hname hgap hmargin hmark hends

/-- **A statement that is not a remark is code**, if the name shows that its lines begin with. -/
theorem hasCode_statement {context : String} {st : Statement} (hst : st.isComment = false)
    (hshows : ∀ name ∈ st.leading?, Dialect.python.shows name.toList = true) :
    ∃ line ∈ statement false context st, Dialect.python.HasCode (line.toList ++ ['\n']) := by
  have hoperation (op : Operation) (hpage : Dialect.python.shows op.page.toList = true) :
      Dialect.python.HasCode ((awaiting false ++ operation op).toList ++ ['\n']) := by
    obtain ⟨rest, tail, hlines, hrest, -⟩ := isCall_operation op
    obtain ⟨more, hmore⟩ := hrest.eq_cons
    have hline : awaiting false ++ operation op = op.page ++ rest :=
      String.empty_append.trans (List.cons.inj hlines).1
    refine hasCode_of_name hpage (by simp : ['.'] ∈ _) ?_
    rw [hline, String.toList_append, hmore]
    simp
  cases st with
  | comment text => cases hst
  | openPage page =>
    refine ⟨_, List.mem_singleton_self _, hasCode_of_name (hshows page rfl)
      (by simp : [' ', '='] ∈ _) ?_⟩
    simp [toString]
  | perform op => exact ⟨_, List.mem_singleton_self _, hoperation op (hshows _ rfl)⟩
  | answerDialog page dismiss number =>
    refine ⟨_, List.mem_singleton_self _, hasCode_of_name (hshows page rfl)
      (by simp : ['.'] ∈ _) ?_⟩
    simp [toString]
  | performWaiting page waits op =>
    cases waits with
    | nil => exact ⟨_, List.mem_singleton_self _, hoperation op (hshows _ rfl)⟩
    | cons w waits =>
      refine ⟨_, List.mem_cons_self, hasCode_of_name (by decide : Dialect.python.shows [] = true)
        (by simp : ['w'] ∈ _) ?_⟩
      simp [toString]
  | wait page w =>
    refine ⟨_, List.mem_singleton_self _, hasCode_of_name (hshows _ rfl)
      (by simp : [' ', '='] ∈ _) ?_⟩
    simp [toString]

/-- A remark on one line is no code. -/
theorem not_hasCode_comment (root : Option String) {text line : String}
    (htext : ∀ c ∈ text.toList, c ∉ Dialect.python.lineEnds)
    (hline : line ∈ test.statement root (.comment text)) :
    ¬Dialect.python.HasCode (line.toList ++ ['\n']) := by
  have hmark : line.toList = '#' :: ' ' :: text.toList := by
    rw [List.mem_singleton.mp hline]
    simp [toString]
  rw [hmark]
  refine Dialect.not_hasCode_of_isComment (by decide) rfl ?_
  rw [List.forall_mem_cons, List.forall_mem_cons]
  exact ⟨by simp [Dialect.lineEnds], by simp [Dialect.lineEnds], htext⟩

end Python

/-! ### Bodies -/

/-- The text of the body of a program. -/
def Language.bodyText (l : Language) (actions : List Action) (aliases : AliasTable) : List Char :=
  textOf (indent l.bodyIndent (l.body actions aliases))

/-- **A text of lines has code** if one of the lines does. -/
theorem hasCode_textOf {d : Dialect} (hd : d ≠ .java) (lines : List String) :
    d.HasCode (textOf lines) ↔ ∃ line ∈ lines, d.HasCode (line.toList ++ ['\n']) := by
  induction lines with
  | nil => simp [Dialect.hasCode_iff hd, textOf, Dialect.splitLines]
  | cons line lines ih =>
    rw [textOf_cons, Dialect.hasCode_append_end hd (Dialect.lineFeed_mem_lineEnds d) (by simp), ih]
    simp only [List.mem_cons, exists_eq_or_imp]

namespace Python

section

variable {actions : List Action} {aliases : AliasTable}

/-- An indented body has code if one of its lines does. -/
theorem hasCode_bodyText_iff :
    Dialect.python.HasCode (test.bodyText actions aliases) ↔
      ∃ line ∈ test.body actions aliases, Dialect.python.HasCode (line.toList ++ ['\n']) := by
  have hremarks : test.WritesRemarks .python := ⟨fun root text => rfl, 4, rfl⟩
  rw [Language.bodyText, hasCode_textOf (by decide), indent]
  simp only [List.mem_map, exists_exists_and_eq_and]
  refine exists_congr fun line => and_congr_right fun _ => ?_
  split
  · rfl
  · rw [String.toList_append, List.append_assoc]
    refine Dialect.hasCode_append_margin (by decide) (fun c hc => ?_) fun c hc => ?_
    · rw [hremarks.eq_space_of_mem hc]
      decide
    · rw [hremarks.eq_space_of_mem hc]
      simp [Dialect.lineEnds]

/-- **The lines of a body** are those of its plan, unless this is empty. -/
theorem body_eq_ite : test.body actions aliases =
    if plan aliases.root actions = [] then ["pass"]
    else (plan aliases.root actions).flatMap (test.statement aliases.root) := by
  have hlines (st : Statement) : test.statement aliases.root st ≠ [] := by
    cases st with
    | performWaiting page waits op => cases waits <;> exact List.cons_ne_nil _ _
    | _ => exact List.cons_ne_nil _ _
  rw [Language.body]
  split
  · next hnil =>
    rw [if_pos]
    · rfl
    · exact List.eq_nil_iff_forall_not_mem.mpr fun st hst =>
        hlines st (List.flatMap_eq_nil_iff.mp hnil st hst)
  · next hsome =>
    rw [if_neg]
    intro hnil
    exact hsome (by rw [hnil, List.flatMap_nil])

/-- Actions that leave nothing make an empty plan. -/
theorem plan_eq_nil_iff {root : Option String} : plan root actions = [] ↔
    ∀ a ∈ actions, a.isPerformed root = false ∧ a.leavesRemark = false := by
  have hany := any_planFrom root 0 actions
  constructor
  · intro hnil a ha
    have hperformed := hany false
    have hremarks := hany true
    rw [← plan, hnil, List.any_nil, eq_comm, List.any_eq_false] at hperformed hremarks
    exact ⟨Bool.eq_false_of_not_eq_true (hperformed a ha),
      Bool.eq_false_of_not_eq_true (hremarks a ha)⟩
  · intro hnothing
    refine List.eq_nil_iff_forall_not_mem.mpr fun st hst => ?_
    have hleft : (actions.any fun a =>
        bif st.isComment then a.leavesRemark else a.isPerformed root) = true := by
      rw [← hany]
      exact List.any_eq_true.mpr ⟨st, hst, beq_self_eq_true _⟩
    obtain ⟨a, ha, hleft⟩ := List.any_eq_true.mp hleft
    rw [(hnothing a ha).1, (hnothing a ha).2, Bool.cond_self] at hleft
    cases hleft

/-- A test function is its header and its body. -/
theorem toList_render_test (actions : List Action) (aliases : AliasTable) :
    (test.render actions aliases).toList =
      textOf (test.header aliases.root) ++ test.bodyText actions aliases := by
  rw [test_hasBrackets.toList_render, Language.lines, textOf, List.flatMap_append,
    List.flatMap_append]
  exact List.append_nil _

/-- **Code comes from an action that is performed**, if there is anything in the plan. -/
theorem performed_of_hasCode (hkinds : ∀ a ∈ actions, a.HasPlainKind)
    (hcode : Dialect.python.HasCode (test.bodyText actions aliases)) :
    (∃ a ∈ actions, a.isPerformed aliases.root = true) ∨ plan aliases.root actions = [] := by
  obtain ⟨line, hline, hcode⟩ := hasCode_bodyText_iff.mp hcode
  rw [body_eq_ite] at hline
  split at hline
  · next hnil => exact .inr hnil
  · obtain ⟨st, hst, hline⟩ := List.mem_flatMap.mp hline
    obtain ⟨a, ha, n, hleft⟩ := exists_of_mem_planFrom hst
    cases hcomment : st.isComment with
    | false =>
      have hany := any_statementsOf aliases.root n a false
      have hsome : ((statementsOf aliases.root n a).1.any fun st => st.isComment == false) = true :=
        List.any_eq_true.mpr ⟨st, hleft, by simp [hcomment]⟩
      exact .inl ⟨a, ha, hany.symm.trans hsome⟩
    | true =>
      cases st with
      | comment text =>
        have hplain := (left_statementsOf aliases.root n _ hleft).oneLine rfl (hkinds a ha)
        exact absurd hcode (not_hasCode_comment aliases.root hplain hline)
      | _ => cases hcomment

/-- **An action that is performed makes code**, if its names show. -/
theorem hasCode_of_isPerformed {a : Action} (ha : a ∈ actions)
    (hperformed : a.isPerformed aliases.root = true) (hnames : a.ShowsNames) :
    Dialect.python.HasCode (test.bodyText actions aliases) := by
  obtain ⟨before, after, rfl⟩ := List.append_of_mem ha
  obtain ⟨front, n, hfront⟩ := exists_planFrom_append aliases.root 0 before
  obtain ⟨st, hst, hcomment⟩ := List.any_eq_true.mp
    ((any_statementsOf aliases.root n a false).trans hperformed)
  have hmem : st ∈ plan aliases.root (before ++ a :: after) := by
    rw [plan, hfront, planFrom_cons]
    exact List.mem_append_right _ (List.mem_append_left _ hst)
  obtain ⟨line, hline, hcode⟩ := hasCode_statement (beq_iff_eq.mp hcomment)
    ((left_statementsOf aliases.root n st hst).shows hnames)
  rw [hasCode_bodyText_iff, body_eq_ite, if_neg (List.ne_nil_of_mem hmem)]
  exact ⟨line, List.mem_flatMap.mpr ⟨st, hmem, hline⟩, hcode⟩

/-- The statement for an empty plan is code. -/
theorem hasCode_of_plan_eq_nil (h : plan aliases.root actions = []) :
    Dialect.python.HasCode (test.bodyText actions aliases) := by
  have hlines : Dialect.python.splitLines ("pass".toList ++ ['\n']) = ["pass".toList] := by cbv
  rw [hasCode_bodyText_iff, body_eq_ite, if_pos h]
  refine ⟨"pass", List.mem_singleton_self _, ?_⟩
  rw [Dialect.hasCode_iff (by decide), hlines]
  exact ⟨_, List.mem_singleton_self _, by cbv⟩

end

/-- **Whether the body of a test function has code.** It comes from actions that are performed, as
far as their names show, and from the statement for actions that leave nothing at all. If what the
actions leave is remarks alone, there is none. -/
theorem hasCode_body (actions : List Action) (aliases : AliasTable)
    (hkinds : ∀ a ∈ actions, a.HasPlainKind) :
    (test.render actions aliases).toList =
      textOf (test.header aliases.root) ++ test.bodyText actions aliases ∧
    (Dialect.python.HasCode (test.bodyText actions aliases) →
      (∃ a ∈ actions, a.isPerformed aliases.root = true) ∨
        ∀ a ∈ actions, a.isPerformed aliases.root = false ∧ a.leavesRemark = false) ∧
    ((∃ a ∈ actions, a.isPerformed aliases.root = true ∧ a.ShowsNames) ∨
        (∀ a ∈ actions, a.isPerformed aliases.root = false ∧ a.leavesRemark = false) →
      Dialect.python.HasCode (test.bodyText actions aliases)) := by
  refine ⟨toList_render_test actions aliases, fun hcode => ?_, ?_⟩
  · rw [← plan_eq_nil_iff]
    exact performed_of_hasCode hkinds hcode
  · rintro (⟨a, ha, hperformed, hnames⟩ | hnothing)
    · exact hasCode_of_isPerformed ha hperformed hnames
    · exact hasCode_of_plan_eq_nil (plan_eq_nil_iff.mpr hnothing)

/-- A click makes code, also behind a remark. -/
theorem hasCode_body_click :
    let actions : List Action := [{ kind := .other "hover", page := "page" },
      { kind := .click, page := "page", selector := some (.testId "save") }]
    (∀ a ∈ actions, a.HasPlainKind) ∧ Dialect.python.HasCode (test.bodyText actions {}) := by
  intro actions
  have hhover : isPlainText "hover" = true := isPlainText_given rfl rfl
  have hkinds : ∀ a ∈ actions, a.HasPlainKind := by
    refine List.forall_mem_cons.mpr
      ⟨?_, List.forall_mem_singleton.mpr fun name hname => nomatch hname⟩
    intro name hname c hc
    rw [← Kind.other.inj hname] at hc
    exact (ne_of_isPlainText hhover hc).1
  refine ⟨hkinds, (hasCode_body actions {} hkinds).2.2 (.inl ?_)⟩
  exact ⟨_, List.mem_cons_of_mem _ List.mem_cons_self, rfl, by decide +kernel, by simp, by simp⟩

/-- **A remark alone makes no code**: the body of a single action of an unknown kind is a
comment. -/
theorem not_hasCode_bodyText_hover :
    let actions : List Action := [{ kind := .other "hover", page := "page" }]
    test.body actions {} = ["# unsupported action: hover"] ∧
      ¬Dialect.python.HasCode (test.bodyText actions {}) := by
  intro actions
  have hbody : test.body actions {} = ["# unsupported action: hover"] := by decide +kernel
  have htext : isPlainText "unsupported action: hover" = true := isPlainText_given rfl rfl
  refine ⟨hbody, fun hcode => ?_⟩
  obtain ⟨line, hline, hcode⟩ := hasCode_bodyText_iff.mp hcode
  exact not_hasCode_comment none (fun c hc => (ne_of_isPlainText htext hc).1)
    (by rwa [hbody] at hline) hcode

end Python

end Program

end Scribe
