import Scribe.Output

/-!
# Waiting for output

**The waits** on an output, each under a name, as they go on side by side. A wait that was asked for
begins at the next settling, and a wait that was answered or cancelled ends at the next settling, so
what happens in between is decided by the last word: a cancelled wait stays cancelled.

* `Scribe.Waits.ask`, `Scribe.Waits.cancel` – the calls;
* `Scribe.Waits.update` – the output changes;
* `Scribe.Waits.settle` – the waits take note of what happened;
* `Scribe.Waits.advance` – time goes by, and waits run out.
-/

namespace Scribe

open Program

/-- **How a wait ended.** -/
inductive WaitEnd where
  | answered (s : Source)
  | unknown (e : CatalogError)
  | timedOut
  | cancelled
  deriving Repr, DecidableEq

/-- **Where a wait stands**, time being `τ`. -/
inductive WaitPhase (τ : Type) where
  /-- It was asked for and has not begun. -/
  | asked (tag substring : String) (timeout : Option τ)
  /-- It has a waiter at the output, up to a deadline. -/
  | waiting (ticket : Nat) (deadline : Option τ)
  /-- It has its answer and has not taken note of it. -/
  | answered (s : Source)
  /-- It was cancelled and has not taken note of it. -/
  | cancelling
  | ended (how : WaitEnd)
  deriving Repr, DecidableEq

/-- **The waits** on an output. -/
structure Waits (τ : Type) where
  /-- The output. -/
  output : Output
  /-- The waits by name, in the order in which they were first asked for. -/
  waits : List (String × WaitPhase τ) := []
  /-- The present time. -/
  now : τ

namespace Waits

variable {τ : Type}

/-- The waits with one of them set. -/
def set (waits : List (String × WaitPhase τ)) (name : String) (p : WaitPhase τ) :
    List (String × WaitPhase τ) :=
  if waits.any (·.1 == name) then waits.map fun w => if w.1 == name then (name, p) else w
  else waits ++ [(name, p)]

/-- **Asks for a wait.** -/
def ask (w : Waits τ) (name tag substring : String) (timeout : Option τ) : Waits τ :=
  { w with waits := set w.waits name (.asked tag substring timeout) }

/-- **Cancels a wait**, unless it has ended. -/
def cancel (w : Waits τ) (name : String) : Waits τ :=
  match w.waits.lookup name with
  | none | some (.ended _) => w
  | some (.waiting ticket _) =>
    { w with output := w.output.giveUp ticket, waits := set w.waits name .cancelling }
  | some _ => { w with waits := set w.waits name .cancelling }

/-- A phase when the given waiters have been answered. -/
def afterAnswers (answers : List (Nat × Source)) : WaitPhase τ → WaitPhase τ
  | .waiting ticket deadline =>
    match answers.lookup ticket with
    | some s => .answered s
    | none => .waiting ticket deadline
  | p => p

/-- **The output is generated anew.** -/
def update (w : Waits τ) (actions : List Action) (aliases : AliasTable) : Waits τ × Update :=
  let (output, u) := w.output.update actions aliases
  ({ w with
      output := output
      waits := w.waits.map fun e => (e.1, afterAnswers u.answered e.2) }, u)

/-- **Begins a wait.** It ends at once if the text is there or the tag unknown, and also if there is
no time to wait. -/
def begin_ [OfNat τ 0] [Add τ] [LE τ] [DecidableLE τ] (output : Output) (now : τ)
    (tag substring : String) (timeout : Option τ) : Output × WaitPhase τ :=
  match output.wait tag substring with
  | .error e => (output, .ended (.unknown e))
  | .ok (output, .ready s) => (output, .ended (.answered s))
  | .ok (output, .registered ticket) =>
    match timeout with
    | none => (output, .waiting ticket none)
    | some t =>
      if t ≤ 0 then (output.giveUp ticket, .ended .timedOut)
      else (output, .waiting ticket (some (now + t)))

/-- A phase after the wait has taken note of what happened to it. -/
def settlePhase [OfNat τ 0] [Add τ] [LE τ] [DecidableLE τ] (output : Output) (now : τ) :
    WaitPhase τ → Output × WaitPhase τ
  | .asked tag substring timeout => begin_ output now tag substring timeout
  | .answered s => (output, .ended (.answered s))
  | .cancelling => (output, .ended .cancelled)
  | p => (output, p)

/-- The waits of a list after they have taken note of what happened. -/
def settleList [OfNat τ 0] [Add τ] [LE τ] [DecidableLE τ] (now : τ) :
    Output → List (String × WaitPhase τ) → Output × List (String × WaitPhase τ)
  | output, [] => (output, [])
  | output, (name, p) :: rest =>
    let (output, p) := settlePhase output now p
    let (output, rest) := settleList now output rest
    (output, (name, p) :: rest)

/-- **The waits take note** of what happened to them. -/
def settle [OfNat τ 0] [Add τ] [LE τ] [DecidableLE τ] (w : Waits τ) : Waits τ :=
  let (output, waits) := settleList w.now w.output w.waits
  { w with output := output, waits := waits }

/-- A phase at a time: it ends if its deadline has been reached. -/
def expirePhase [LE τ] [DecidableLE τ] (now : τ) (output : Output) :
    WaitPhase τ → Output × WaitPhase τ
  | .waiting ticket (some deadline) =>
    if deadline ≤ now then (output.giveUp ticket, .ended .timedOut)
    else (output, .waiting ticket (some deadline))
  | p => (output, p)

/-- The waits of a list at a time. -/
def expireList [LE τ] [DecidableLE τ] (now : τ) :
    Output → List (String × WaitPhase τ) → Output × List (String × WaitPhase τ)
  | output, [] => (output, [])
  | output, (name, p) :: rest =>
    let (output, p) := expirePhase now output p
    let (output, rest) := expireList now output rest
    (output, (name, p) :: rest)

/-- **Time goes by**: the waits take note of what happened, and those whose deadline is reached run
out. -/
def advance [OfNat τ 0] [Add τ] [LE τ] [DecidableLE τ] (w : Waits τ) (seconds : τ) : Waits τ :=
  let w := w.settle
  let now := w.now + seconds
  let (output, waits) := expireList now w.output w.waits
  { w with output := output, waits := waits, now := now }

end Waits

end Scribe
