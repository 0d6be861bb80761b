import Scribe.Action

/-!
# The action log

**The log** of committed actions. It only grows: an action is appended with a sequence number that
is greater than all before it, either its own or the next one, until the log is frozen.
-/

namespace Scribe

/-- **The log**: its actions in order, and whether it is closed to further ones. -/
structure ActionLog where
  /-- The committed actions, the oldest first. -/
  actions : List Action := []
  /-- Whether the log takes no further actions. -/
  frozen : Bool := false
  deriving Repr, DecidableEq

/-- **Why an action is refused.** -/
inductive LogViolation where
  /-- The log is frozen. -/
  | frozen
  /-- The sequence number of the action is less than the next one. -/
  | regressed (given next : Int)
  deriving Repr, DecidableEq

/-- A violation in words. -/
def LogViolation.message : LogViolation → String
  | frozen => "凍結済みの ActionLog に追記しようとしました"
  | regressed given next => s!"sequence が後退しました: {given} < {next}"

namespace ActionLog

/-- The last action. -/
def last? (log : ActionLog) : Option Action :=
  log.actions.getLast?

/-- The sequence number that an action without one receives. -/
def nextSequence (log : ActionLog) : Int :=
  match log.last? with
  | some a => a.sequence + 1
  | none => 0

/-- **Appends an action**, and returns it as it stands in the log. -/
def append (log : ActionLog) (a : Action) : Except LogViolation (Action × ActionLog) :=
  if log.frozen then .error .frozen
  else if a.isCommitted && a.sequence < log.nextSequence then
    .error (.regressed a.sequence log.nextSequence)
  else
    let committed := if a.isCommitted then a else { a with sequence := log.nextSequence }
    .ok (committed, { log with actions := log.actions ++ [committed] })

/-- The log closed to further actions. -/
def freeze (log : ActionLog) : ActionLog :=
  { log with frozen := true }

/-- The log of a list of actions, appended one by one. -/
def ofActions (actions : List Action) : Except LogViolation ActionLog :=
  actions.foldlM (fun log a => (log.append a).map (·.2)) {}

end ActionLog

end Scribe
