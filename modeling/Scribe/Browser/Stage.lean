import Scribe.Browser.Watch

/-!
# Scripted pages

**A stage** holds the pages of a browser that plays a script: pages by name, each with the address
at which it appeared. A step of the script (`Scribe.ScriptStep`) changes the stage and is told of in
notices, in the order in which a browser gives them: a popup appears as a page first, and as a popup
of its opener after that.
-/

namespace Scribe

/-- **The steps of a script.** -/
inductive ScriptStep where
  /-- A page appears; one that is there already is told of again. -/
  | page (h : PageHandle) (url : Option String)
  /-- A page opens another one; `announced` says whether the context tells of it as well. -/
  | popup (opener h : PageHandle) (url : Option String) (announced : Bool)
  | navigate (h : PageHandle) (url : String) (main : Bool)
  | close (h : PageHandle)
  | download (h : PageHandle) (filename : Option String)
  | dialog (h : PageHandle) (type message : String)
  /-- The script in the pages reports something. -/
  | message (sender : Sender) (content : Value)
  /-- What is scheduled takes its turn. -/
  | turn
  /-- Some seconds go by. -/
  | wait (seconds : Float)
  /-- The person interrupts the program. -/
  | interrupt

/-- The address of a page that was sent nowhere. -/
def blankPage : String := "about:blank"

/-- **A stage.** -/
structure Stage where
  /-- All pages there have been, with the addresses at which they appeared. -/
  pages : List (PageHandle × String) := []
  /-- The pages that are open, in order. -/
  openPages : List PageHandle := []
  deriving Repr, DecidableEq

namespace Stage

/-- Whether there has been a page of that name. -/
def knows (s : Stage) (h : PageHandle) : Bool :=
  s.pages.any (·.1 == h)

/-- The address at which a page appeared. -/
def urlOf (s : Stage) (h : PageHandle) : String :=
  (s.pages.lookup h).getD blankPage

/-- The stage with a page, unless there has been one of that name. -/
def add (s : Stage) (h : PageHandle) (url : Option String) : Stage :=
  if s.knows h then s
  else { s with pages := s.pages ++ [(h, url.getD blankPage)], openPages := s.openPages ++ [h] }

/-- The open pages with their addresses. -/
def opened (s : Stage) : List (PageHandle × String) :=
  s.openPages.map fun h => (h, s.urlOf h)

/-- The page that a step is about and that has to be there, if there is one. -/
def subject? : ScriptStep → Option PageHandle
  | .popup opener .. => some opener
  | .navigate h .. | .close h | .download h _ | .dialog h .. => some h
  | .message (.page h) _ => some h
  | _ => none

/-- The page that a step is about, if the stage does not know it. -/
def missing? (s : Stage) (step : ScriptStep) : Option PageHandle :=
  (subject? step).filter fun h => !s.knows h

/-- **A step is played**: the stage after it, and what a browser tells of it. -/
def play (s : Stage) : ScriptStep → Stage × List Notice
  | .page h url =>
    let s := s.add h url
    (s, [.page h])
  | .popup opener h url announced =>
    let s := s.add h url
    (s, (if announced then [.page h] else []) ++ [.popup opener h (s.urlOf h)])
  | .navigate h url main => (s, [.navigated h url main])
  | .close h => ({ s with openPages := s.openPages.filter (· != h) }, [.closed h])
  | .download h filename => (s, [.download h filename])
  | .dialog h type message => (s, [.dialog h type message])
  | .message sender content => (s, [.message sender content])
  | .turn | .wait _ | .interrupt => (s, [])

end Stage

end Scribe
