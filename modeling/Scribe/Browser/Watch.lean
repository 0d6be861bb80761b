import Scribe.Event

/-!
# Watching the pages of a browser

**A watch** turns what a browser tells into events of a recording. Each page gets an identifier of
its own when it is first seen, `page-1`, `page-2` and so on, and keeps it.

A page that appears may be the popup of another page, and the browser says so only afterwards. So
the watch does not announce a page at once: it schedules the announcement for its next turn
(`Scribe.Watch.turn`), and a popup notice that comes before makes the announcement void. The address
that it announces is the one that the page has at the turn.

* `Scribe.Watch.track` – the identifier of a page;
* `Scribe.Watch.hear` – a notice of the browser;
* `Scribe.Watch.turn` – the announcements that are due;
* `Scribe.Watch.meet` – a page that was open before the watch began.
-/

namespace Scribe

/-- What tells one page of a browser from another. -/
abbrev PageHandle := String

/-- **Who sent a message.** -/
inductive Sender where
  /-- A page of the browser. -/
  | page (h : PageHandle)
  /-- Nobody that the watch could know. -/
  | stranger
  /-- Something that cannot be looked up at all. -/
  | unnameable
  deriving Repr, DecidableEq

/-- The sender that a value gives: at most a map that names it under `page`. What is named there is
no page of the browser, and a list or a map is no name. -/
def Sender.ofValue (v : Value) : Sender :=
  match v.get? "page" with
  | some (.list _) | some (.map _) => .unnameable
  | _ => .stranger

/-- **What a browser tells** of its pages. -/
inductive Notice where
  /-- A page has appeared in the context. -/
  | page (h : PageHandle)
  /-- A page has opened another one, at an address. -/
  | popup (opener h : PageHandle) (url : String)
  | closed (h : PageHandle)
  /-- A frame of the page went to an address; `main` says whether it is the main frame. -/
  | navigated (h : PageHandle) (url : String) (main : Bool)
  | download (h : PageHandle) (filename : Option String)
  /-- A dialog is shown, which waits for an answer. -/
  | dialog (h : PageHandle) (type message : String)
  /-- The script that runs in the pages reports something. -/
  | message (sender : Sender) (content : Value)

/-- **What a watch does** about a notice. -/
structure Reaction where
  /-- The events, in order. -/
  events : List Event := []
  /-- Whether a message of a page was refused. -/
  refused : Bool := false
  /-- Whether a dialog was dismissed. -/
  dismissed : Bool := false
  /-- Whether the sender of a message could not be looked up. -/
  unnameable : Bool := false

/-- **A watch** over the pages of a browser. -/
structure Watch where
  /-- The pages seen so far, each with its identifier, in order. -/
  ids : List (PageHandle × String) := []
  /-- The identifiers of the pages that have appeared and are not announced. -/
  unannounced : List String := []
  /-- The announcements for the next turn: pages with their identifiers. -/
  scheduled : List (PageHandle × String) := []
  /-- Whether the watch was set over a context. -/
  attached : Bool := false
  /-- Whether the context tells of new pages. -/
  listening : Bool := false
  deriving Repr, DecidableEq

namespace Watch

/-- The identifier of a page, if it has been seen. -/
def idOf? (w : Watch) (h : PageHandle) : Option String :=
  w.ids.lookup h

/-- The identifier of the page that is seen after `n` others. -/
def idAfter (n : Nat) : String :=
  s!"page-{n + 1}"

/-- **The identifier of a page**, a new one if the page has not been seen. -/
def track (w : Watch) (h : PageHandle) : String × Watch :=
  match w.idOf? h with
  | some id => (id, w)
  | none =>
    let id := idAfter w.ids.length
    (id, { w with ids := w.ids ++ [(h, id)] })

/-- An event of a page, at a time. -/
def event (id : String) (now : Float) (what : Occurrence) : Event :=
  { page := id, timestamp := now, what := what }

/-- The event of a page that has been seen; of other pages there is none. -/
def report (w : Watch) (now : Float) (h : PageHandle) (what : Occurrence) : List Event :=
  (w.idOf? h).toList.map fun id => event id now what

/-- The entries of a message from a page: whatever page they name, it is this one. -/
def signed (id : String) (entries : List (Value × Value)) : Value :=
  .map ((entries.filter fun e => !e.1.isStr "page_id") ++ [(.str "page_id", .str id)])

/-- The reaction to a message from the page with an identifier. What is no event is refused. -/
def readMessage (id : String) (now : Float) : Value → Reaction
  | .map entries =>
    match Event.shape now (signed id entries) with
    | .ok e => { events := [e] }
    | .faulty _ => { refused := true }
  | _ => { refused := true }

/-- **A notice of the browser** is heard. -/
def hear (w : Watch) (now : Float) : Notice → Watch × Reaction
  | .page h =>
    if w.listening then
      let (id, w) := w.track h
      ({ w with
          unannounced := if w.unannounced.contains id then w.unannounced else w.unannounced ++ [id]
          scheduled := w.scheduled ++ [(h, id)] }, {})
    else (w, {})
  | .popup opener h url =>
    match w.idOf? opener with
    | none => (w, {})
    | some openerId =>
      let (id, w) := w.track h
      ({ w with unannounced := w.unannounced.filter (· != id) },
        { events := [event openerId now (.popup id (some url))] })
  | .closed h => (w, { events := w.report now h .closed })
  | .navigated h url main => (w, { events := if main then w.report now h (.navigated url) else [] })
  | .download h filename => (w, { events := w.report now h (.download filename) })
  | .dialog h type message =>
    (w, { events := w.report now h (.dialog type message true), dismissed := (w.idOf? h).isSome })
  | .message (.page h) content => (w, (w.idOf? h).elim {} fun id => readMessage id now content)
  | .message .stranger _ => (w, {})
  | .message .unnameable _ => (w, { unnameable := true })

/-- One announcement: the event that the page was opened, unless something else has told of it. -/
def announce (now : Float) (urlOf : PageHandle → String) (unannounced : List String)
    (entry : PageHandle × String) : List String × List Event :=
  if unannounced.contains entry.2 then
    (unannounced.filter (· != entry.2), [event entry.2 now (.opened (some (urlOf entry.1)))])
  else (unannounced, [])

/-- The announcements, one after the other. -/
def announceAll (now : Float) (urlOf : PageHandle → String) :
    List String → List (PageHandle × String) → List String × List Event
  | unannounced, [] => (unannounced, [])
  | unannounced, entry :: rest =>
    let (unannounced, first) := announce now urlOf unannounced entry
    let (unannounced, others) := announceAll now urlOf unannounced rest
    (unannounced, first ++ others)

/-- **A turn**: the announcements that were scheduled are made, with the addresses that the pages
have now. -/
def turn (w : Watch) (now : Float) (urlOf : PageHandle → String) : Watch × List Event :=
  let (unannounced, events) := announceAll now urlOf w.unannounced w.scheduled
  ({ w with unannounced := unannounced, scheduled := [] }, events)

/-- **A page is met** that was open before the watch began. -/
def meet (w : Watch) (now : Float) (h : PageHandle) (url : String) : Watch × List Event :=
  let (id, w) := w.track h
  (w, [event id now (.opened (some url))])

end Watch

end Scribe
