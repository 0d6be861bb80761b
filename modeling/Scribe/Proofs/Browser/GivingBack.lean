import Mathlib.Data.List.Induction
import Mathlib.Data.List.Nodup
import Scribe.Proofs.Browser.Outcome

/-!
# What a launcher gives back

A launch acquires an engine, a browser and a context one after the other, and any of its calls may
fail; closing saves and gives back, and any of these calls may fail as well. Whatever fails, in the
end the launcher holds nothing any more, and it is idle after a launch that failed and closed after
a closing.

Not everything is closed, though. `Scribe.Launcher.giveBack` closes the context, the browser and the
engine in this order *up to the first that fails* (`Scribe.Engine.upToFailure`), and what comes
after it is only forgotten: a context that does not close leaves a browser running
(`Scribe.Launcher.forgets_browser_of_stuck_context`). `Scribe.Launcher.run_givesBack` says for every
sequence of launches and closings which calls are made, and that each resource is closed exactly
once if and only if none of these calls fails, the last one aside.

What an act of the launcher does is put together from three parts:

* it **acquires** (`Scribe.Launcher.Acquires`), with calls that give nothing back
  (`Scribe.Launcher.acquires_acquire`);
* it **saves** (`Scribe.Launcher.Saves`), and no fault comes of it (`Scribe.Launcher.saves_save`);
* it **gives back** (`Scribe.Launcher.GaveBack`, `Scribe.Launcher.outcome_giveBack`).

A whole launch and a whole closing are told by `Scribe.Launcher.outcome_launch` and
`Scribe.Launcher.outcome_close`.

Between moves a launcher has a `Scribe.Launcher.Standing`: it holds nothing, or all that one launch
acquired.
-/

namespace Scribe

/-! ### Resources -/

/-- **What a launch acquires**, in the order in which it is given back. -/
inductive Resource where
  | context
  | browser
  | engine
  deriving Repr, DecidableEq

namespace Resource

/-- All resources, in the order in which they are given back. -/
def all : List Resource :=
  [context, browser, engine]

/-- Whether a call acquires the resource. -/
def opens : Resource → Call → Bool
  | context, .newContext .. | browser, .launch _ | engine, .start => true
  | _, _ => false

/-- The call that gives the resource back. -/
def closing : Resource → Call
  | context => .closeContext
  | browser => .closeBrowser
  | engine => .stop

theorem closing_injective : Function.Injective closing := by
  intro x y h
  cases x <;> cases y <;> first | rfl | cases h

end Resource

/-- Whether a call gives something back. -/
def Call.isClosing : Call → Bool
  | .closeContext | .closeBrowser | .stop => true
  | _ => false

@[simp] theorem Resource.isClosing_closing (x : Resource) : x.closing.isClosing = true := by
  cases x <;> rfl

/-- A call that gives something back acquires nothing. -/
theorem Resource.not_opens_of_isClosing {c : Call} (h : c.isClosing = true) (x : Resource) :
    x.opens c = false := by
  cases c <;> cases x <;> first | rfl | cases h

namespace Engine

variable (e : Engine)

/-- **No call is interrupted**: the engine reports errors, and nothing else goes wrong. -/
def IsUninterrupted : Prop :=
  ∀ c, e.reply c ≠ some .interrupt

/-- Whether calls acquired a resource: the one that opens it was made and did not fail. -/
def acquires (made : List Call) (x : Resource) : Bool :=
  made.any fun c => x.opens c && (e.reply c).isNone

/-- **What calls acquired.** -/
def acquired (made : List Call) : List Resource :=
  Resource.all.filter (e.acquires made)

/-- **The calls that give resources back.** An engine that cannot be stopped is only let go. -/
def closings (resources : List Resource) : List Call :=
  (resources.filter fun x => x != .engine || e.canStop).map Resource.closing

/-- **Calls one after the other, up to the first that fails.** -/
def upToFailure : List Call → List Call
  | [] => []
  | c :: rest => c :: if (e.reply c).isNone then upToFailure rest else []

variable {e}

theorem acquires_append (made later : List Call) (x : Resource) :
    e.acquires (made ++ later) x = (e.acquires made x || e.acquires later x) :=
  List.any_append

/-- Calls that give something back acquire nothing. -/
theorem acquires_of_isClosing {made : List Call} (h : ∀ c ∈ made, c.isClosing = true)
    (x : Resource) : e.acquires made x = false :=
  List.any_eq_false.mpr fun c hc => by simp [x.not_opens_of_isClosing (h c hc)]

theorem isClosing_of_mem_closings {resources : List Resource} {c : Call}
    (h : c ∈ e.closings resources) : c.isClosing = true := by
  obtain ⟨x, -, rfl⟩ := List.mem_map.mp h
  exact x.isClosing_closing

theorem nodup_closings {resources : List Resource} (h : resources.Nodup) :
    (e.closings resources).Nodup :=
  (h.filter _).map Resource.closing_injective

theorem upToFailure_isPrefix (cs : List Call) : e.upToFailure cs <+: cs := by
  induction cs with
  | nil => exact List.prefix_rfl
  | cons c rest ih =>
    rw [upToFailure]
    split
    · exact List.cons_prefix_cons.mpr ⟨rfl, ih⟩
    · exact List.cons_prefix_cons.mpr ⟨rfl, List.nil_prefix⟩

/-- **All calls are made** if and only if none fails that is not the last. -/
theorem upToFailure_eq_self_iff (cs : List Call) :
    e.upToFailure cs = cs ↔ ∀ c ∈ cs.dropLast, e.reply c = none := by
  induction cs with
  | nil => simp [upToFailure]
  | cons c rest ih =>
    cases rest with
    | nil => simp [upToFailure]
    | cons d more =>
      rw [upToFailure, List.dropLast_cons_cons, List.forall_mem_cons, ← ih,
        ← Option.isNone_iff_eq_none]
      cases (e.reply c).isNone <;> simp

/-- **Each of some calls is made exactly once** if and only if none fails that is not the last. -/
theorem count_upToFailure_iff {cs : List Call} (h : cs.Nodup) :
    (∀ c ∈ cs, (e.upToFailure cs).count c = 1) ↔ ∀ c ∈ cs.dropLast, e.reply c = none := by
  rw [← upToFailure_eq_self_iff]
  refine ⟨fun hcount => ?_, fun heq c hc => ?_⟩
  · obtain ⟨rest, hrest⟩ := upToFailure_isPrefix (e := e) cs
    cases rest with
    | nil => simpa using hrest
    | cons d more =>
      -- the first call that is missing would have been made once, and it stands behind those made
      have hmade : d ∈ e.upToFailure cs := by
        refine List.count_pos_iff.mp ?_
        rw [hcount d (by rw [← hrest]; simp)]
        exact Nat.one_pos
      rw [← hrest] at h
      exact absurd rfl ((List.nodup_append.mp h).2.2 d hmade d List.mem_cons_self)
  · rw [heq]
    exact List.count_eq_one_of_mem h hc

end Engine

namespace Launcher

/-! ### Acquiring -/

/-- Whether a launcher holds a resource. -/
def holds (l : Launcher) : Resource → Bool
  | .context => l.holdsContext
  | .browser => l.holdsBrowser
  | .engine => l.holdsEngine

/-- **What a launcher holds.** -/
def held (l : Launcher) : List Resource :=
  Resource.all.filter l.holds

/-- **Some resources were acquired on the way** from a launcher to a result, all of them if it is no
fault: the calls made meanwhile give nothing back, the launcher holds what it held and what they
acquired, and no interruption came. -/
structure Acquired (e : Engine) (xs : List Resource) (l : Launcher) (made : List Call)
    (r : Except BrowserFault Unit × Launcher) : Prop where
  calls : r.2.calls = l.calls ++ made
  phase : r.2.phase = l.phase
  holds : ∀ x, r.2.holds x = (l.holds x || e.acquires made x)
  isClosing : ∀ c ∈ made, c.isClosing = false
  uninterrupted : r.1 ≠ .error (.call .interrupt)
  mem : ∀ x, e.acquires made x = true → x ∈ xs
  all : r.1 = .ok () → ∀ x ∈ xs, e.acquires made x = true

/-- **An act acquires some resources**: if it returns, all of them, and never any other. -/
def Acquires (e : Engine) (xs : List Resource) (act : LauncherM Unit) : Prop :=
  ∀ l, ∃ made, Acquired e xs l made (outcome act l)

section

variable {e : Engine} {l l' : Launcher} {made later : List Call} {xs ys : List Resource}
  {act next : LauncherM Unit} {r : Except BrowserFault Unit × Launcher}

/-- One result after another. -/
theorem Acquired.trans (h : Acquired e xs l made (.ok (), l')) (hr : Acquired e ys l' later r) :
    Acquired e (xs ++ ys) l (made ++ later) r where
  calls := by rw [hr.calls, h.calls, List.append_assoc]
  phase := hr.phase.trans h.phase
  holds x := by rw [hr.holds, h.holds, Engine.acquires_append, Bool.or_assoc]
  isClosing c hc := (List.mem_append.mp hc).elim (h.isClosing c) (hr.isClosing c)
  uninterrupted := hr.uninterrupted
  mem x hx := by
    rw [Engine.acquires_append, Bool.or_eq_true] at hx
    exact List.mem_append.mpr (hx.imp (h.mem x) (hr.mem x))
  all hok x hx := by
    rw [Engine.acquires_append, Bool.or_eq_true]
    exact (List.mem_append.mp hx).imp (h.all rfl x) (hr.all hok x)

/-- One act after the other acquires what they acquire. -/
theorem Acquires.bind (h : Acquires e xs act) (hnext : Acquires e ys next) :
    Acquires e (xs ++ ys) (act >>= fun _ => next) := by
  intro l
  obtain ⟨made, hmade⟩ := h l
  rw [outcome_bind]
  generalize outcome act l = r at hmade
  obtain ⟨f | _, l'⟩ := r
  · exact ⟨made, hmade.calls, hmade.phase, hmade.holds, hmade.isClosing, hmade.uninterrupted,
      fun x hx => List.mem_append_left _ (hmade.mem x hx), by rintro ⟨⟩⟩
  · obtain ⟨later, hlater⟩ := hnext l'
    exact ⟨_, hmade.trans hlater⟩

/-- What an act does to the launcher without a call, and without a change of what is held. -/
theorem acquires_modify {f : Launcher → Launcher} (hcalls : ∀ l, (f l).calls = l.calls)
    (hphase : ∀ l, (f l).phase = l.phase) (hholds : ∀ l, (f l).holds = l.holds) :
    Acquires e [] (modify f) := fun l =>
  ⟨[], (hcalls l).trans (List.append_nil _).symm, hphase l,
    fun x => (congrFun (hholds l) x).trans (Bool.or_false _).symm, by simp, by rintro ⟨⟩,
    fun x h => (by cases h), by simp⟩

theorem acquires_withWatch (step : Watch → Watch × List Event) :
    Acquires e [] (withWatch step) := by
  refine acquires_modify (fun l => ?_) (fun l => ?_) (fun l => ?_) <;>
    cases l.watch <;> rfl

theorem acquires_report (x : LauncherReport) : Acquires e [] (report x) :=
  acquires_modify (fun _ => rfl) (fun _ => rfl) (fun _ => rfl)

theorem acquires_pure : Acquires e [] (pure ()) :=
  acquires_modify (f := id) (fun _ => rfl) (fun _ => rfl) (fun _ => rfl)

/-- An act that ends in a fault at once. -/
theorem acquires_throw {f : BrowserFault} (hf : f ≠ .call .interrupt) :
    Acquires e [] (throw f) := fun l =>
  ⟨[], (List.append_nil _).symm, rfl, fun x => (Bool.or_false _).symm, by simp,
    fun h => hf (Except.error.inj h), fun x h => (by cases h), by simp⟩

/-- An act that looks at the launcher first. -/
theorem acquires_get {look : Launcher → LauncherM Unit} (h : ∀ l, Acquires e xs (look l)) :
    Acquires e xs (get >>= look) :=
  fun l => h l l

/-- **A call that acquires nothing**, and gives nothing back. -/
theorem acquires_call (he : e.IsUninterrupted) {c : Call} (hc : c.isClosing = false)
    (hopens : ∀ x : Resource, x.opens c = false) : Acquires e [] (call e c) := by
  intro l
  have hnone (x : Resource) : e.acquires [c] x = false := by simp [Engine.acquires, hopens]
  rw [outcome_call]
  refine ⟨[c], rfl, rfl, fun x => ?_, by simpa using hc, ?_, fun x hx => ?_, by simp⟩
  · rw [hnone, Bool.or_false]
    rfl
  · cases hreply : e.reply c with
    | none => simp
    | some f =>
      rintro ⟨⟩
      exact he c hreply
  · rw [hnone] at hx
    cases hx

/-- **A call that acquires a resource**, which is held from then on if it does not fail. -/
theorem acquires_open (he : e.IsUninterrupted) {c : Call} {x : Resource}
    {hold : Launcher → Launcher} (hc : c.isClosing = false)
    (hopens : ∀ y : Resource, y.opens c = (y == x)) (hcalls : ∀ l, (hold l).calls = l.calls)
    (hphase : ∀ l, (hold l).phase = l.phase)
    (hholds : ∀ l y, (hold l).holds y = (l.holds y || y == x)) :
    Acquires e [x] (call e c >>= fun _ => modify hold) := by
  intro l
  rw [outcome_bind, outcome_call]
  cases hreply : e.reply c with
  | none =>
    have hmade (y : Resource) : e.acquires [c] y = (y == x) := by
      simp [Engine.acquires, hopens, hreply]
    refine ⟨[c], hcalls _, hphase _, fun y => ?_, by simpa using hc, by rintro ⟨⟩,
      fun y hy => ?_, fun _ y hy => ?_⟩
    · rw [hmade]
      exact hholds _ y
    · simpa [hmade] using hy
    · simpa [hmade] using hy
  | some f =>
    have hmade (y : Resource) : e.acquires [c] y = false := by
      simp [Engine.acquires, hreply]
    refine ⟨[c], rfl, rfl, fun y => ?_, by simpa using hc, ?_, fun y hy => ?_, by rintro ⟨⟩⟩
    · rw [hmade, Bool.or_false]
      rfl
    · rintro ⟨⟩
      exact he c hreply
    · rw [hmade] at hy
      cases hy

/-- An act of which an error does no harm, or is dealt with by another. -/
theorem Acquires.guarded (h : Acquires e [] act) {onError : LauncherM Unit}
    (hon : Acquires e [] onError) : Acquires e [] (guarded act onError) := by
  intro l
  obtain ⟨made, hmade⟩ := h l
  rw [Launcher.guarded, outcome_tryCatch]
  generalize outcome act l = r at hmade
  obtain ⟨f | _, l'⟩ := r
  · obtain ⟨later, hlater⟩ := hon l'
    have hok : Acquired e [] l made (.ok (), l') :=
      ⟨hmade.calls, hmade.phase, hmade.holds, hmade.isClosing, by rintro ⟨⟩, hmade.mem, by simp⟩
    refine ⟨made ++ later, ?_⟩
    dsimp only
    split
    · exact absurd rfl hmade.uninterrupted
    · exact hok.trans hlater
  · exact ⟨made, hmade⟩

/-- Acts that acquire nothing, one after the other. -/
theorem acquires_forM {α : Type} (items : List α) {act : α → LauncherM Unit}
    (h : ∀ x, Acquires e [] (act x)) : Acquires e [] (items.forM act) := by
  induction items with
  | nil => exact acquires_pure
  | cons x rest ih => exact (h x).bind ih

/-! ### What the acts of a launcher acquire -/

/-- **Setting the watch** acquires nothing. -/
theorem acquires_attach (he : e.IsUninterrupted) (now : Float)
    (pages : List (PageHandle × String)) :
    Acquires e [] (attach e now pages) := by
  have hevaluate (h : PageHandle) : Acquires e [] (call e (.evaluate h)) :=
    acquires_call he rfl fun x => by cases x <;> rfl
  have hmeet := acquires_forM pages fun p => (acquires_withWatch fun w => w.meet now p.1 p.2).bind
    ((hevaluate p.1).guarded acquires_pure)
  have hrest := (acquires_withWatch (e := e) fun w => ({ w with attached := true }, [])).bind <|
    (acquires_call he (c := .exposeBinding bindingName) rfl fun x => by cases x <;> rfl).bind <|
    (acquires_call he (c := .addScript pageScript) rfl fun x => by cases x <;> rfl).bind <|
    (acquires_call he (c := .listen "page") rfl fun x => by cases x <;> rfl).bind <|
    (acquires_withWatch fun w => ({ w with listening := true }, [])).bind hmeet
  refine acquires_get fun l => ?_
  dsimp only
  split
  · exact (acquires_throw (by rintro ⟨⟩)).bind hrest
  · exact hrest

/-- **Acquiring** acquires the engine, the browser and the context. -/
theorem acquires_acquire (he : e.IsUninterrupted) (now : Float) (first : PageHandle × String)
    (pages : List (PageHandle × String)) :
    Acquires e [.engine, .browser, .context] (acquire e now first pages) := by
  have hpage : Acquires e [] (do
      attach e now pages
      call e .newPage
      withWatch fun w => ((w.hear now (.page first.1)).1, [])
      withWatch fun w => w.turn now fun _ => first.2) :=
    (acquires_attach he now pages).bind <|
    (acquires_call he rfl fun x => by cases x <;> rfl).bind <|
    (acquires_withWatch _).bind (acquires_withWatch _)
  have hwatch := (acquires_modify (e := e) (f := fun l => { l with watch := some {} })
    (fun _ => rfl) (fun _ => rfl) (fun _ => rfl)).bind hpage
  have htrace (o : LaunchOptions) : Acquires e [] (do
      if o.trace.isSome then call e .startTrace
      modify fun l => { l with watch := some {} }
      attach e now pages
      call e .newPage
      withWatch fun w => ((w.hear now (.page first.1)).1, [])
      withWatch fun w => w.turn now fun _ => first.2) := by
    dsimp only
    split
    · exact (acquires_call he rfl fun x => by cases x <;> rfl).bind hwatch
    · exact hwatch
  refine acquires_get fun l => ?_
  have hengine : Acquires e [.engine] (call e .start >>= fun _ =>
      modify fun l => { l with holdsEngine := true }) :=
    acquires_open he rfl (fun x => by cases x <;> rfl) (fun _ => rfl) (fun _ => rfl)
      fun l x => by cases x <;> simp [holds]
  have hbrowser : Acquires e [.browser] (call e (.launch !l.options.headed) >>= fun _ =>
      modify fun l => { l with holdsBrowser := true }) :=
    acquires_open he rfl (fun x => by cases x <;> rfl) (fun _ => rfl) (fun _ => rfl)
      fun l x => by cases x <;> simp [holds]
  have hcontext : Acquires e [.context]
      (call e (.newContext l.options.width l.options.height l.options.archive) >>= fun _ =>
        modify fun l => { l with holdsContext := true }) :=
    acquires_open he rfl (fun x => by cases x <;> rfl) (fun _ => rfl) (fun _ => rfl)
      fun l x => by cases x <;> simp [holds]
  have hall := hengine.bind (hbrowser.bind (hcontext.bind (htrace l.options)))
  simp only [bind_assoc] at hall
  exact hall

/-! ### Saving -/

/-- Errors that are dealt with do not come through. -/
theorem outcome_guarded (h : Acquires e [] act) {onError : LauncherM Unit}
    (hon : ∀ l, (outcome onError l).1 = .ok ()) (l : Launcher) :
    (outcome (guarded act onError) l).1 = .ok () := by
  obtain ⟨made, hmade⟩ := h l
  rw [Launcher.guarded, outcome_tryCatch]
  generalize outcome act l = r at hmade
  obtain ⟨f | _, l'⟩ := r
  · dsimp only
    split
    · exact absurd rfl hmade.uninterrupted
    · exact hon l'
  · rfl

/-- **An act that saves**: it acquires nothing, and no fault comes of it. -/
def Saves (e : Engine) (act : LauncherM Unit) : Prop :=
  Acquires e [] act ∧ ∀ l, (outcome act l).1 = .ok ()

theorem Saves.bind (h : Saves e act) (hnext : Saves e next) :
    Saves e (act >>= fun _ => next) := by
  refine ⟨h.1.bind hnext.1, fun l => ?_⟩
  have hok := h.2 l
  rw [outcome_bind]
  generalize outcome act l = r at hok
  obtain ⟨f | _, l'⟩ := r
  · cases hok
  · exact hnext.2 l'

theorem saves_pure : Saves e (pure ()) :=
  ⟨acquires_pure, fun _ => rfl⟩

theorem saves_get {act : Launcher → LauncherM Unit} (h : ∀ l, Saves e (act l)) :
    Saves e (get >>= act) :=
  ⟨acquires_get fun l => (h l).1, fun l => (h l).2 l⟩

theorem saves_guarded (h : Acquires e [] act) (x : LauncherReport) :
    Saves e (guarded act (report x)) :=
  ⟨h.guarded (acquires_report x), outcome_guarded h fun _ => rfl⟩

theorem saves_save (he : e.IsUninterrupted) : Saves e (save e) := by
  have hstorage (path : String) : Saves e (guarded (call e (.saveStorage path)) _) :=
    saves_guarded (acquires_call he rfl fun x => by cases x <;> rfl) .storageLost
  have htrace (path : String) : Saves e (guarded (call e (.stopTrace path)) _) :=
    saves_guarded (acquires_call he rfl fun x => by cases x <;> rfl) .traceLost
  refine saves_get fun l => ?_
  dsimp only
  split
  · refine (htrace _).bind ?_
    split
    · exact hstorage _
    · exact saves_pure
  · split
    · exact hstorage _
    · exact saves_pure

/-! ### Giving back -/

/-- How calls one after the other end: with the first that fails. -/
def ending (e : Engine) (cs : List Call) : Except BrowserFault Unit :=
  match cs.findSome? e.reply with
  | none => .ok ()
  | some f => .error (.call f)

/-- A call that is made if it has to be, and then further calls. -/
theorem outcome_callIf {b : Bool} {c : Call} {cs : List Call}
    (hnext : ∀ calls, outcome next { l with calls := calls } =
      (ending e cs, { l with calls := calls ++ e.upToFailure cs })) :
    outcome (if b = true then call e c >>= fun _ => next else next) l =
      (ending e ((if b then [c] else []) ++ cs),
        { l with calls := l.calls ++ e.upToFailure ((if b then [c] else []) ++ cs) }) := by
  cases b with
  | false => exact hnext l.calls
  | true =>
    simp only [if_true, outcome_bind, outcome_call, List.singleton_append, ending,
      Engine.upToFailure, List.findSome?_cons]
    cases hreply : e.reply c with
    | none => simpa [ending] using hnext (l.calls ++ [c])
    | some f => rfl

/-- **What is held is closed**, up to the first call that fails. -/
theorem outcome_closeHeld (e : Engine) (l : Launcher) :
    outcome (closeHeld e) l =
      (ending e (e.closings l.held),
        { l with calls := l.calls ++ e.upToFailure (e.closings l.held) }) := by
  have hclosings : e.closings l.held = (if l.holdsContext then [.closeContext] else []) ++
      ((if l.holdsBrowser then [.closeBrowser] else []) ++
        ((if l.holdsEngine && e.canStop then [.stop] else []) ++ [])) := by
    cases hc : l.holdsContext <;> cases hb : l.holdsBrowser <;> cases hs : l.holdsEngine <;>
      cases he : e.canStop <;>
      simp [Engine.closings, held, Resource.all, holds, hc, hb, hs, he, Resource.closing]
  rw [hclosings]
  refine outcome_callIf fun calls => ?_
  refine outcome_callIf fun calls' => ?_
  change outcome (if (l.holdsEngine && e.canStop) = true then call e .stop else pure ()) _ = _
  rw [← bind_pure (call e .stop)]
  exact outcome_callIf fun calls => by simp [ending, Engine.upToFailure]; rfl

/-- Calls that are not interrupted do not end in an interruption. -/
theorem ending_ne_interrupt (he : e.IsUninterrupted) (cs : List Call) :
    ending e cs ≠ .error (.call .interrupt) := by
  intro h
  cases hfind : cs.findSome? e.reply with
  | none => simp [ending, hfind] at h
  | some f =>
    obtain ⟨c, -, hc⟩ := List.exists_of_findSome?_eq_some hfind
    obtain rfl : f = .interrupt := by simpa [ending, hfind] using h
    exact he c hc

/-- **Everything is given back**, as far as it goes, and nothing is held any more. -/
theorem outcome_giveBack (he : e.IsUninterrupted) (l : Launcher) :
    ∃ reports, outcome (giveBack e) l =
      (.ok (), { l with
        calls := l.calls ++ e.upToFailure (e.closings l.held)
        reports := reports
        holdsEngine := false
        holdsBrowser := false
        holdsContext := false }) := by
  have hne := ending_ne_interrupt he (e.closings l.held)
  rw [giveBack, outcome_bind, outcome_tryCatch, Launcher.guarded, outcome_tryCatch,
    outcome_closeHeld]
  generalize ending e (e.closings l.held) = result at hne
  obtain (f | f | (message | _)) | _ := result
  case error.call.interrupt => exact absurd rfl hne
  case ok => exact ⟨l.reports, rfl⟩
  all_goals exact ⟨l.reports ++ [.closeFailed], rfl⟩

/-! ### Launching and closing -/

/-- **What a launcher comes to hold** with some calls: what it holds, and what they acquire. -/
def reached (e : Engine) (l : Launcher) (made : List Call) : List Resource :=
  Resource.all.filter fun x => l.holds x || e.acquires made x

theorem nodup_reached : (l.reached e made).Nodup :=
  List.Nodup.filter _ (by decide)

/-- **Resources are given back** by some calls: of what gives something back, the calls made are
those for the resources, up to the first that fails; so each is made exactly once if and only if
none fails that is not the last. -/
structure GivesBack (e : Engine) (resources : List Resource) (made : List Call) : Prop where
  closings : made.filter Call.isClosing = e.upToFailure (e.closings resources)
  once_iff : (∀ c ∈ e.closings resources, made.count c = 1) ↔
    ∀ c ∈ (e.closings resources).dropLast, e.reply c = none

theorem givesBack_of_closings {resources : List Resource} (hnodup : resources.Nodup)
    (h : made.filter Call.isClosing = e.upToFailure (e.closings resources)) :
    GivesBack e resources made := by
  refine ⟨h, ?_⟩
  rw [← Engine.count_upToFailure_iff (Engine.nodup_closings hnodup), ← h]
  exact forall₂_congr fun c hc => by rw [List.count_filter (Engine.isClosing_of_mem_closings hc)]

/-- **Everything was given back** on the way from a launcher to another: nothing is held any more,
and the calls made meanwhile give back all that the launcher had come to hold. -/
structure GaveBack (e : Engine) (l : Launcher) (made : List Call) (l' : Launcher) : Prop where
  calls : l'.calls = l.calls ++ made
  held : l'.held = []
  givesBack : GivesBack e (l.reached e made) made

/-- What is held is given back after some calls that gave nothing back. -/
theorem gaveBack_of_acquired (h : Acquired e xs l made r) (l' : Launcher)
    (hcalls : l'.calls = r.2.calls ++ e.upToFailure (e.closings r.2.held))
    (hheld : ∀ x, l'.holds x = false) :
    GaveBack e l (made ++ e.upToFailure (e.closings r.2.held)) l' := by
  have hclosing : ∀ c ∈ e.upToFailure (e.closings r.2.held), c.isClosing = true := fun c hc =>
    Engine.isClosing_of_mem_closings ((Engine.upToFailure_isPrefix _).subset hc)
  have hreached : l.reached e (made ++ e.upToFailure (e.closings r.2.held)) = r.2.held := by
    refine List.filter_congr fun x _ => ?_
    rw [h.holds, Engine.acquires_append, Engine.acquires_of_isClosing hclosing, Bool.or_false]
  refine ⟨by rw [hcalls, h.calls, List.append_assoc], ?_, givesBack_of_closings nodup_reached ?_⟩
  · exact List.filter_eq_nil_iff.mpr fun x _ => by simp [hheld]
  · rw [hreached, List.filter_append, List.filter_eq_nil_iff.mpr, List.filter_eq_self.mpr hclosing,
      List.nil_append]
    intro c hc
    simp [h.isClosing c hc]

/-- A launcher that is not idle does not launch. -/
theorem outcome_launch_of_ne_idle (h : l.phase ≠ .idle) (now : Float) (first : PageHandle × String)
    (pages : List (PageHandle × String)) :
    outcome (launch e now first pages) l = (.error (.notIdle l.phase), l) := by
  rw [launch, outcome_bind]
  change outcome (if (l.phase != .idle) = true then _ else _) l = _
  rw [if_pos (by simpa using h)]
  rfl

/-- An idle launcher acquires, and gives everything back on a fault that is no interruption. -/
theorem outcome_launch_eq (e : Engine) (h : l.phase = .idle) (now : Float)
    (first : PageHandle × String) (pages : List (PageHandle × String)) :
    ∃ onFault : BrowserFault → LauncherM Unit,
      outcome (launch e now first pages) l =
        outcome (tryCatch (acquire e now first pages) onFault >>= fun _ =>
          modify fun l => { l with phase := .active }) { l with phase := .launching } ∧
      ∀ f, f ≠ .call .interrupt → onFault f = (do
        report .launchFailed
        giveBack e
        modify fun l => { l with phase := .idle }
        throw f) := by
  apply Exists.intro
  constructor
  · rw [launch, outcome_bind]
    change outcome (if (l.phase != .idle) = true then _ else _) l = _
    rw [if_neg (by simpa using h)]
    rfl
  · intro f hf
    obtain p | _ | (message | _) := f
    case call.interrupt => exact absurd rfl hf
    all_goals rfl

/-- **A launch** of an idle launcher: it returns with everything acquired and nothing given back, or
it fails, and everything is given back. -/
theorem outcome_launch (he : e.IsUninterrupted) (h : l.phase = .idle) (now : Float)
    (first : PageHandle × String) (pages : List (PageHandle × String)) :
    ∃ made,
      (outcome (launch e now first pages) l).1 = .ok () ∧
        (outcome (launch e now first pages) l).2.phase = .active ∧
        (outcome (launch e now first pages) l).2.calls = l.calls ++ made ∧
        (outcome (launch e now first pages) l).2.held = Resource.all ∧
        e.acquired made = Resource.all ∧ (∀ c ∈ made, c.isClosing = false) ∨
      (outcome (launch e now first pages) l).1 ≠ .ok () ∧
        (outcome (launch e now first pages) l).2.phase = .idle ∧
        GaveBack e l made (outcome (launch e now first pages) l).2 := by
  obtain ⟨made, hmade⟩ := acquires_acquire he now first pages { l with phase := .launching }
  obtain ⟨onFault, hlaunch, hfault⟩ := outcome_launch_eq e h now first pages
  rw [hlaunch, outcome_bind, outcome_tryCatch]
  generalize outcome (acquire e now first pages) { l with phase := .launching } = r at hmade
  obtain ⟨f | _, l'⟩ := r
  · obtain ⟨reports, hback⟩ := outcome_giveBack he
      { l' with reports := l'.reports ++ [.launchFailed] }
    refine ⟨made ++ e.upToFailure (e.closings l'.held), .inr ?_⟩
    have hfail : outcome (report .launchFailed >>= fun _ => giveBack e >>= fun _ =>
        modify (fun l => { l with phase := .idle }) >>= fun _ => (throw f : LauncherM Unit)) l' =
        (.error f, { l' with
          calls := l'.calls ++ e.upToFailure (e.closings l'.held)
          reports := reports
          holdsEngine := false
          holdsBrowser := false
          holdsContext := false
          phase := .idle }) := by
      rw [outcome_bind]
      change outcome (giveBack e >>= _) { l' with reports := l'.reports ++ [.launchFailed] } = _
      rw [outcome_bind, hback]
      rfl
    have hgave := gaveBack_of_acquired hmade { l' with
      calls := l'.calls ++ e.upToFailure (e.closings l'.held)
      reports := reports
      holdsEngine := false
      holdsBrowser := false
      holdsContext := false
      phase := .idle } rfl fun x => by cases x <;> rfl
    have hgave' : GaveBack e l (made ++ e.upToFailure (e.closings l'.held)) _ :=
      ⟨hgave.calls, hgave.held, hgave.givesBack⟩
    have hf : f ≠ .call .interrupt := by
      rintro rfl
      exact hmade.uninterrupted rfl
    dsimp only
    rw [hfault f hf, hfail]
    exact ⟨by rintro ⟨⟩, rfl, hgave'⟩
  · have hall : ∀ x, e.acquires made x = true := fun x =>
      hmade.all rfl x (by cases x <;> simp)
    have hholds (x : Resource) : l'.holds x = true := by
      rw [hmade.holds, hall, Bool.or_true]
    refine ⟨made, .inl ⟨rfl, rfl, hmade.calls, List.filter_eq_self.mpr fun x _ => hholds x,
      List.filter_eq_self.mpr fun x _ => hall x, hmade.isClosing⟩⟩

/-- A launcher with nothing to close does nothing. -/
theorem outcome_close_of_settled (h : l.phase = .idle ∨ l.phase = .closed) (e : Engine) :
    outcome (close e) l = (.ok (), l) := by
  rw [close, outcome_bind]
  change outcome (if (l.phase == .launching || l.phase == .active) = true then _ else _) l = _
  rw [if_neg (by rcases h with h | h <;> simp [h])]
  rfl

/-- **A closing** of an active launcher: it returns, acquires nothing, and gives everything back. -/
theorem outcome_close (he : e.IsUninterrupted) (h : l.phase = .active) :
    ∃ made,
      (outcome (close e) l).1 = .ok () ∧ (outcome (close e) l).2.phase = .closed ∧
        (∀ x, e.acquires made x = false) ∧ GaveBack e l made (outcome (close e) l).2 := by
  have hsave (b : Bool) : Saves e (if b = true then save e else pure ()) := by
    cases b
    · exact saves_pure
    · exact saves_save he
  obtain ⟨made, hmade⟩ := (hsave l.holdsContext).1 { l with phase := .closing }
  have hok := (hsave l.holdsContext).2 { l with phase := .closing }
  have hclose : outcome (close e) l =
      outcome ((if l.holdsContext = true then save e else pure ()) >>= fun _ =>
        giveBack e >>= fun _ => modify fun l => { l with phase := .closed })
          { l with phase := .closing } := by
    rw [close, outcome_bind]
    change outcome (if (l.phase == .launching || l.phase == .active) = true then _ else _) l = _
    rw [if_pos (by simp [h])]
    change outcome (if l.holdsContext = true then _ else _) { l with phase := .closing } = _
    cases l.holdsContext <;> rfl
  rw [hclose, outcome_bind]
  generalize outcome (if l.holdsContext = true then save e else pure ())
    { l with phase := .closing } = r at hmade hok
  obtain ⟨f | _, l'⟩ := r
  · cases hok
  · obtain ⟨reports, hback⟩ := outcome_giveBack he l'
    dsimp only
    rw [outcome_bind, hback]
    have hgave := gaveBack_of_acquired hmade { l' with
      calls := l'.calls ++ e.upToFailure (e.closings l'.held)
      reports := reports
      holdsEngine := false
      holdsBrowser := false
      holdsContext := false
      phase := .closed } rfl fun x => by cases x <;> rfl
    refine ⟨made ++ e.upToFailure (e.closings l'.held), rfl, rfl, fun x => ?_,
      hgave.calls, hgave.held, hgave.givesBack⟩
    rw [Engine.acquires_append, Engine.acquires_of_isClosing fun c hc =>
      Engine.isClosing_of_mem_closings ((Engine.upToFailure_isPrefix _).subset hc), Bool.or_false]
    exact Bool.eq_false_iff.mpr fun hx => absurd (hmade.mem x hx) List.not_mem_nil

end

/-! ### Launches and closings one after the other -/

/-- **What is asked of a launcher**, with the engine as it turns out this time. -/
inductive Move where
  | launch (e : Engine) (now : Float) (first : PageHandle × String)
    (pages : List (PageHandle × String))
  | close (e : Engine)

/-- The engine of a move. -/
def Move.engine : Move → Engine
  | .launch e .. | .close e => e

/-- A move as an act. -/
def Move.act : Move → LauncherM Unit
  | .launch e now first pages => Launcher.launch e now first pages
  | .close e => Launcher.close e

/-- **A move**: how it ends, and the launcher then. -/
def perform (l : Launcher) (m : Move) : Except BrowserFault Unit × Launcher :=
  outcome m.act l

/-- **Moves one after the other**, with a new launcher. -/
def run (options : LaunchOptions) (moves : List Move) : Launcher :=
  moves.foldl (fun l m => (l.perform m).2) { options := options }

/-- Whether a move is a launch that is begun and fails. -/
def Move.Fails : Move → Launcher → Prop
  | .launch e now first pages, l =>
    l.phase = .idle ∧ (l.perform (.launch e now first pages)).1 ≠ .ok ()
  | .close _, _ => False

/-- Whether a move is a closing with something to close. -/
def Move.Closes : Move → Launcher → Prop
  | .launch .., _ => False
  | .close _, l => l.phase = .launching ∨ l.phase = .active

/-- **What is held comes from one launch**: it returned, it acquired everything with calls of its
own, and the launcher is as it was left by that launch. -/
def HoldsFromLaunch (options : LaunchOptions) (before : List Move) : Prop :=
  ∃ earlier e now first pages later opening,
    before = earlier ++ .launch e now first pages :: later ∧
    ((run options earlier).perform (.launch e now first pages)).1 = .ok () ∧
    run options before = run options (earlier ++ [.launch e now first pages]) ∧
    (run options before).calls = (run options earlier).calls ++ opening ∧
    e.acquired opening = Resource.all ∧ ∀ c ∈ opening, c.isClosing = false

/-- **The standing of a launcher** between moves: it is idle or closed and holds nothing, or active
and holds what one launch acquired. -/
inductive Standing (options : LaunchOptions) (before : List Move) : Prop where
  | settled (phase : (run options before).phase = .idle ∨ (run options before).phase = .closed)
      (held : (run options before).held = [])
  | active (phase : (run options before).phase = .active)
      (held : (run options before).held = Resource.all) (launch : HoldsFromLaunch options before)

theorem run_concat (options : LaunchOptions) (before : List Move) (m : Move) :
    run options (before ++ [m]) = ((run options before).perform m).2 :=
  List.foldl_concat ..

section

variable {options : LaunchOptions} {before : List Move} {m : Move}

/-- A move that leaves the launcher as it is leaves its standing. -/
theorem Standing.concat_of_eq (h : Standing options before)
    (heq : run options (before ++ [m]) = run options before) :
    Standing options (before ++ [m]) := by
  rcases h with ⟨hphase, hheld⟩ | ⟨hphase, hheld, hlaunch⟩
  · exact .settled (by rwa [heq]) (by rwa [heq])
  · refine .active (by rwa [heq]) (by rwa [heq]) ?_
    obtain ⟨earlier, e, now, first, pages, later, opening, rfl, hok, hrun, hcalls, hrest⟩ := hlaunch
    exact ⟨earlier, e, now, first, pages, later ++ [m], opening, by simp, hok, heq.trans hrun,
      by rwa [heq], hrest⟩

/-- **A move keeps the standing** of a launcher. -/
theorem Standing.concat (h : Standing options before) (he : m.engine.IsUninterrupted) :
    Standing options (before ++ [m]) := by
  cases m with
  | launch e now first pages =>
    by_cases hidle : (run options before).phase = .idle
    · obtain ⟨made, ⟨hok, hphase, hcalls, hheld, hacquired, hclosing⟩ | ⟨-, hphase, hgave⟩⟩ :=
        outcome_launch he hidle now first pages
      · refine .active (by rw [run_concat]; exact hphase) (by rw [run_concat]; exact hheld) ?_
        exact ⟨before, e, now, first, pages, [], made, rfl, hok, rfl,
          by rw [run_concat]; exact hcalls, hacquired, hclosing⟩
      · exact .settled (by rw [run_concat]; exact .inl hphase)
          (by rw [run_concat]; exact hgave.held)
    · refine h.concat_of_eq ?_
      rw [run_concat]
      exact congrArg Prod.snd (outcome_launch_of_ne_idle hidle now first pages)
  | close e =>
    rcases id h with ⟨hphase, -⟩ | ⟨hphase, -, -⟩
    · refine h.concat_of_eq ?_
      rw [run_concat]
      exact congrArg Prod.snd (outcome_close_of_settled hphase e)
    · obtain ⟨made, -, hclosed, -, hgave⟩ := outcome_close he hphase
      exact .settled (by rw [run_concat]; exact .inr hclosed) (by rw [run_concat]; exact hgave.held)

/-- **The standing of a launcher** after any moves. -/
theorem standing_run (options : LaunchOptions) (moves : List Move)
    (h : ∀ m ∈ moves, m.engine.IsUninterrupted) : Standing options moves := by
  induction moves using List.reverseRecOn with
  | nil => exact .settled (.inl rfl) rfl
  | append_singleton before m ih =>
    exact (ih fun n hn => h n (List.mem_append_left _ hn)).concat (h m (by simp))

end

/-- **What a launcher gives back.** After any launches and closings, with engines of which any calls
fail, a launch that fails leaves the launcher idle and holding nothing, and what this launch
acquired is given back; a closing leaves it closed and holding nothing, and everything is given
back, which one launch before acquired. Giving back stops at the first call that fails, though
(`Scribe.Launcher.GivesBack`). Other launches and closings give nothing back. -/
theorem run_givesBack (options : LaunchOptions) (before : List Move) (m : Move)
    (h : ∀ n ∈ before ++ [m], n.engine.IsUninterrupted) :
    ∃ made,
      (run options (before ++ [m])).calls = (run options before).calls ++ made ∧
      (m.Fails (run options before) →
        (run options (before ++ [m])).phase = .idle ∧ (run options (before ++ [m])).held = [] ∧
          GivesBack m.engine (m.engine.acquired made) made) ∧
      (m.Closes (run options before) →
        ((run options before).perform m).1 = .ok () ∧
          (run options (before ++ [m])).phase = .closed ∧ (run options (before ++ [m])).held = [] ∧
          HoldsFromLaunch options before ∧ GivesBack m.engine Resource.all made) ∧
      (¬m.Fails (run options before) → ¬m.Closes (run options before) →
        ∀ c ∈ made, c.isClosing = false) := by
  have he : m.engine.IsUninterrupted := h m (by simp)
  have hstanding := standing_run options before fun n hn => h n (List.mem_append_left _ hn)
  rw [run_concat]
  cases m with
  | launch e now first pages =>
    by_cases hidle : (run options before).phase = .idle
    · have hheld : (run options before).held = [] := by
        rcases hstanding with ⟨-, hheld⟩ | ⟨hphase, -, -⟩
        · exact hheld
        · cases hidle.symm.trans hphase
      obtain ⟨made, ⟨hok, -, hcalls, -, -, hclosing⟩ | ⟨hfault, hphase, hgave⟩⟩ :=
        outcome_launch he hidle now first pages
      · exact ⟨made, hcalls, fun hfails => absurd hok hfails.2, False.elim, fun _ _ => hclosing⟩
      · refine ⟨made, hgave.calls, fun _ => ⟨hphase, hgave.held, ?_⟩, False.elim,
          fun hfails _ => absurd ⟨hidle, hfault⟩ hfails⟩
        have hreached : (run options before).reached e made = e.acquired made := by
          refine List.filter_congr fun x hx => ?_
          rw [Bool.eq_false_iff.mpr (List.filter_eq_nil_iff.mp hheld x hx), Bool.false_or]
        exact hreached ▸ hgave.givesBack
    · have hstill := outcome_launch_of_ne_idle (e := e) hidle now first pages
      exact ⟨[], by simp [perform, Move.act, hstill], fun hfails => absurd hfails.1 hidle,
        False.elim,
        fun _ _ => by simp⟩
  | close e =>
    rcases hstanding with ⟨hphase, -⟩ | ⟨hphase, hheld, hlaunch⟩
    · have hstill := outcome_close_of_settled hphase e
      refine ⟨[], by simp [perform, Move.act, hstill], False.elim, fun hcloses => ?_,
        fun _ _ => by simp⟩
      rcases hphase with hp | hp <;> simp [Move.Closes, hp] at hcloses
    · obtain ⟨made, hok, hclosed, hnone, hgave⟩ := outcome_close (e := e) he hphase
      refine ⟨made, hgave.calls, False.elim, fun _ => ⟨hok, hclosed, hgave.held, hlaunch, ?_⟩,
        fun _ hcloses => absurd (.inr hphase) hcloses⟩
      have hreached : (run options before).reached e made = Resource.all := by
        rw [← hheld]
        exact List.filter_congr fun x _ => by rw [hnone, Bool.or_false]
      exact hreached ▸ hgave.givesBack

/-- An engine whose contexts do not close. -/
def stuckContext : Engine where
  reply c := if c = .closeContext then some (.error "boom") else none

theorem run_givesBack_of_stuck_context :
    ∃ made,
      (run {} [.launch .sound 0 ("page", "about:blank") [], .close stuckContext]).calls =
        (run {} [.launch .sound 0 ("page", "about:blank") []]).calls ++ made ∧
      (run {} [.launch .sound 0 ("page", "about:blank") [], .close stuckContext]).phase = .closed ∧
      GivesBack stuckContext Resource.all made := by
  have hengines : ∀ n ∈ [Move.launch .sound 0 ("page", "about:blank") []] ++ [.close stuckContext],
      n.engine.IsUninterrupted := by
    simp only [List.cons_append, List.nil_append, List.forall_mem_cons, List.not_mem_nil,
      false_implies, implies_true, and_true]
    refine ⟨fun c => by simp [Move.engine, Engine.sound], fun c => ?_⟩
    by_cases hc : c = .closeContext <;> simp [Move.engine, stuckContext, hc]
  obtain ⟨made, hcalls, -, hcloses, -⟩ := run_givesBack {}
    [.launch .sound 0 ("page", "about:blank") []] (.close stuckContext) hengines
  obtain ⟨-, hphase, -, -, hback⟩ := hcloses (.inr rfl)
  exact ⟨made, hcalls, hphase, hback⟩

/-- **A context that does not close** leaves a browser and an engine that nothing closes: the
launcher held them, and the closing returns without a call for them. -/
theorem forgets_browser_of_stuck_context :
    (run {} [.launch .sound 0 ("page", "about:blank") []]).held = Resource.all ∧
      (run {} [.launch .sound 0 ("page", "about:blank") [], .close stuckContext]).phase = .closed ∧
      (run {} [.launch .sound 0 ("page", "about:blank") [], .close stuckContext]).held = [] ∧
      (run {} [.launch .sound 0 ("page", "about:blank") [], .close stuckContext]).calls.count
        .closeBrowser = 0 ∧
      (run {} [.launch .sound 0 ("page", "about:blank") [], .close stuckContext]).calls.count
        .stop = 0 := by
  refine ⟨rfl, rfl, rfl, ?_, ?_⟩ <;> decide

end Launcher

end Scribe
