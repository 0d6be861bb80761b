import Scribe.Action

/-!
# Candidates

**Candidates** stand between events and committed actions. An event yields a candidate action, or a
candidate signal, which is either put down to an action that was just made or stands for itself.
-/

namespace Scribe

/-- **What identifies an element** across events: its page, the frames around it, its reference. -/
structure ElementKey where
  page : String
  frames : List String
  ref : String
  deriving Repr, DecidableEq

/-- **A candidate action.** -/
structure ActionCandidate where
  /-- The action as it would be committed. -/
  action : Action
  /-- The element that it is aimed at. -/
  key : Option ElementKey := none
  /-- The signal that it is expected to set off. -/
  awaiting : Option SignalKind := none
  deriving Repr, DecidableEq

/-- A fill is mergeable: a later fill of the same element takes its place. -/
def ActionCandidate.isMergeable (c : ActionCandidate) : Bool :=
  c.action.kind == .fill

/-- **A candidate signal.** -/
structure SignalCandidate where
  /-- The page on which it happened. -/
  page : String
  /-- The signal, should there be an action to put it down to. -/
  signal : Signal
  /-- The action that stands for it otherwise. -/
  standalone : Action
  deriving Repr, DecidableEq

/-- **A candidate.** -/
inductive Candidate where
  | action (c : ActionCandidate)
  | signal (c : SignalCandidate)
  /-- Something else, which is refused when its turn comes. -/
  | foreign
  deriving Repr, DecidableEq

end Scribe
