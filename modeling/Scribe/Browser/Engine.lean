import Scribe.Browser.Watch

/-!
# Browser engines

**An engine** is what a recording calls to have a browser: it is known here only by how its calls
turn out (`Scribe.Engine.reply`). A call is noted before it turns out, so that the notes hold the
calls that failed as well.
-/

namespace Scribe

/-- **The calls** to an engine. -/
inductive Call where
  /-- The engine is started. -/
  | start
  /-- A browser is launched, with or without a window. -/
  | launch (headless : Bool)
  /-- A context is opened, with the size of its pages and the file for the traffic, if any. -/
  | newContext (width height : Int) (archive : Option String)
  | startTrace
  /-- The context offers the pages a function under a name. -/
  | exposeBinding (name : String)
  /-- A script is added that runs in every page. -/
  | addScript (path : String)
  /-- The context is asked to tell of something. -/
  | listen (event : String)
  | newPage
  | stopTrace (path : String)
  | saveStorage (path : String)
  | closeContext
  | closeBrowser
  | stop
  /-- The script runs in a page that is open already. -/
  | evaluate (h : PageHandle)
  /-- The first page is sent to an address. -/
  | goto (url : String)
  deriving Repr, DecidableEq

/-- **How a call fails.** -/
inductive CallFailure where
  /-- The engine reports an error. -/
  | error (message : String)
  /-- The person interrupts the program. -/
  | interrupt
  deriving Repr, DecidableEq

/-- **An engine.** -/
structure Engine where
  /-- How a call fails, if it does. -/
  reply : Call → Option CallFailure
  /-- Whether it can be stopped. -/
  canStop : Bool := true

/-- The engine whose calls all succeed. -/
def Engine.sound : Engine where
  reply _ := none

end Scribe
