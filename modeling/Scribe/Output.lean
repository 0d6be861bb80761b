import Scribe.Program.Catalog
import Scribe.Text.Blank

/-!
# Generated output

**The output** holds the program of every language in the catalog, generated anew whenever the log
changes. Subscribers are told when some program changed, and waiters are answered as soon as a
program holds the text that they wait for.

* `Scribe.Output.update` – generates all programs, tells the subscribers, answers the waiters;
* `Scribe.Output.subscribe`, `Scribe.Output.unsubscribe` – a callback may be subscribed several
  times;
* `Scribe.Output.wait` – answers at once or registers a waiter;
* `Scribe.Output.freeze` – no update changes anything from then on.
-/

namespace Scribe

open Program

/-- **A generated program.** -/
structure Source where
  /-- The tag of its language. -/
  tag : String
  /-- The name of its language. -/
  name : String
  /-- Its text. -/
  text : String
  deriving Repr, DecidableEq

/-- **A callback.** It is the same callback as another if it has the same name. -/
structure Callback where
  /-- What tells it apart. -/
  id : String
  /-- Whether it unsubscribes itself when it is called. -/
  once : Bool := false
  deriving Repr, DecidableEq

/-- **A waiter** for a text in the program of a language. -/
structure Waiter where
  /-- The number by which it is told apart. -/
  ticket : Nat
  /-- The tag of the language. -/
  tag : String
  /-- The text. -/
  substring : String
  deriving Repr, DecidableEq

/-- **The output.** -/
structure Output where
  /-- The emitters. -/
  catalog : Catalog
  /-- The programs, one for each emitter. -/
  sources : List Source
  /-- The callbacks in the order in which they were subscribed. -/
  subscribers : List Callback := []
  /-- The waiters that have not been answered. -/
  waiters : List Waiter := []
  /-- The number of the next waiter. -/
  nextTicket : Nat := 0
  /-- Whether updates are ignored. -/
  frozen : Bool := false

/-- **What an update did.** -/
structure Update where
  /-- Whether some program changed. -/
  changed : Bool := false
  /-- The callbacks that were called, in order. -/
  notified : List Callback := []
  /-- The waiters that were answered, each with the program that holds its text. -/
  answered : List (Nat × Source) := []
  deriving Repr, DecidableEq

/-- **How a wait begins.** -/
inductive WaitStart where
  /-- The program holds the text already. -/
  | ready (s : Source)
  /-- A waiter was registered. -/
  | registered (ticket : Nat)
  deriving Repr, DecidableEq

/-- The programs of a log in all languages of a catalog. -/
def renderAll (c : Catalog) (actions : List Action) (aliases : AliasTable) : List Source :=
  c.emitters.map fun e => ⟨e.tag, e.name, e.render actions aliases⟩

namespace Output

/-- **The output of an empty log.** -/
def ofCatalog (c : Catalog) : Output where
  catalog := c
  sources := renderAll c [] {}

/-- The tags in order. -/
def tags (o : Output) : List String :=
  o.sources.map (·.tag)

/-- The program of a language. -/
def source? (o : Output) (tag : String) : Option Source :=
  o.sources.find? (·.tag == tag)

/-- **The program of a language**, or what is wrong with its tag. -/
def get (o : Output) (tag : String) : Except CatalogError Source :=
  match o.source? tag with
  | some s => .ok s
  | none => .error (.unknownTag tag o.tags)

/-- The program that answers a waiter. -/
def answer? (sources : List Source) (w : Waiter) : Option Source :=
  (sources.find? (·.tag == w.tag)).filter fun s => Text.contains s.text w.substring

/-- The callbacks that remain when the given ones have been called: one that is for once goes. -/
def afterCalls (subscribers called : List Callback) : List Callback :=
  called.foldl (fun left c => if c.once then left.erase c else left) subscribers

/-- **Generates all programs anew.** If a text changed, each subscription is called in order, and
the waiters whose text is there are answered. A frozen output stays as it is. -/
def update (o : Output) (actions : List Action) (aliases : AliasTable) : Output × Update :=
  if o.frozen then (o, {})
  else
    let rendered := renderAll o.catalog actions aliases
    let changed := rendered.any fun s => (o.source? s.tag).any (·.text != s.text)
    let o := { o with sources := rendered }
    if !changed then (o, {})
    else
      ({ o with
          subscribers := afterCalls o.subscribers o.subscribers
          waiters := o.waiters.filter fun w => (answer? rendered w).isNone },
        { changed := true
          notified := o.subscribers
          answered := o.waiters.filterMap fun w =>
            (answer? rendered w).map fun s => (w.ticket, s) })

/-- **Subscribes a callback**, also one that is subscribed already. -/
def subscribe (o : Output) (c : Callback) : Output :=
  { o with subscribers := o.subscribers ++ [c] }

/-- **Takes back a subscription** of a callback, if there is one. -/
def unsubscribe (o : Output) (c : Callback) : Output :=
  { o with subscribers := o.subscribers.erase c }

/-- **Begins to wait** for a text in the program of a language. -/
def wait (o : Output) (tag substring : String) : Except CatalogError (Output × WaitStart) :=
  match o.get tag with
  | .error e => .error e
  | .ok s =>
    if Text.contains s.text substring then .ok (o, .ready s)
    else
      .ok ({ o with
          waiters := o.waiters ++ [⟨o.nextTicket, tag, substring⟩]
          nextTicket := o.nextTicket + 1 },
        .registered o.nextTicket)

/-- **Gives up a wait**, because its time is over or it was cancelled. -/
def giveUp (o : Output) (ticket : Nat) : Output :=
  { o with waiters := o.waiters.filter (·.ticket != ticket) }

/-- The output that no update changes any more. -/
def freeze (o : Output) : Output :=
  { o with frozen := true }

end Output

end Scribe
