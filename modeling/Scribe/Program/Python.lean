import Scribe.Program.Language

/-!
# Python programs

Three languages: a script, a script of the asynchronous interface, and a test function, which
receives the root page or the browser context. The asynchronous script awaits every call; apart
from that the statements are the same (`Scribe.Program.Python.statement`).
-/

namespace Scribe.Program.Python

/-- A string literal. -/
def literal (s : String) : String :=
  Text.quoted .python s

/-- A list of string literals. -/
def list (items : List String) : String :=
  s!"[{commaList (items.map literal)}]"

/-- One string literal for a single item, and a list otherwise. -/
def oneOrMany : List String → String
  | [item] => literal item
  | items => list items

/-- The call that finds an element. -/
def selectorCall : Selector → String
  | .testId value => s!"get_by_test_id({literal value})"
  | .role kind name exact =>
    let args := literal kind :: (name.map fun n => s!"name={literal n}").toList ++
      if exact then ["exact=True"] else []
    s!"get_by_role({commaList args})"
  | .label text => s!"get_by_label({literal text})"
  | .placeholder text => s!"get_by_placeholder({literal text})"
  | .text text => s!"get_by_text({literal text})"
  | .css css _ => s!"locator({literal css})"

/-- The expression that reaches an element. -/
def locator (t : Target) : String :=
  ".".intercalate (t.page :: t.frames.map (fun css => s!"frame_locator({literal css})") ++
    [selectorCall t.selector])

/-- A click. -/
def click (t : Target) (button : String) (count : Int) (modifiers : List String) : String :=
  let method := if count == 2 then "dblclick" else "click"
  let options :=
    (if button == "left" then [] else [s!"button={literal button}"]) ++
    (if modifiers.isEmpty then [] else [s!"modifiers={list modifiers}"]) ++
    (if count > 2 then [s!"click_count={count}"] else [])
  s!"{locator t}.{method}({commaList options})"

/-- The call of an operation. -/
def operation : Operation → String
  | .close page => s!"{page}.close()"
  | .navigate page url => s!"{page}.goto({literal url})"
  | .click t button count modifiers => click t button count modifiers
  | .fill t text => s!"{locator t}.fill({literal text})"
  | .check t on => locator t ++ (if on then ".check()" else ".uncheck()")
  | .press t key => s!"{locator t}.press({literal key})"
  | .setFiles t files => s!"{locator t}.set_input_files({oneOrMany files})"
  | .select t options => s!"{locator t}.select_option({oneOrMany options})"

/-- The variable that receives what is waited for. -/
def variableOf : Wait → String
  | .popup v => v
  | .download v => v

/-- The call that waits. -/
def expectation : Wait → String
  | .popup _ => "expect_popup"
  | .download _ => "expect_download"

/-- The event that is waited for. -/
def eventOf : Wait → String
  | .popup _ => literal "popup"
  | .download _ => literal "download"

/-- The word in front of a call. -/
def awaiting (awaits : Bool) : String :=
  if awaits then "await " else ""

/-- Lines inside the blocks that wait, the first wait being the outermost. -/
def nest (awaits : Bool) (page : String) : List Wait → List String → List String
  | [], inner => inner
  | w :: waits, inner =>
    let info := s!"{variableOf w}_info"
    let keyword := if awaits then "async with" else "with"
    s!"{keyword} {page}.{expectation w}() as {info}:" ::
      indent "    " (nest awaits page waits inner) ++
      [s!"{variableOf w} = {awaiting awaits}{info}.value"]

/-- **The lines of a statement**, new pages being opened in the given context. -/
def statement (awaits : Bool) (context : String) : Statement → List String
  | .comment text => [s!"# {text}"]
  | .openPage page => [s!"{page} = {awaiting awaits}{context}.new_page()"]
  | .perform op => [awaiting awaits ++ operation op]
  | .answerDialog page dismiss _ =>
    let method := if dismiss then "dismiss" else "accept"
    [s!"{page}.once(\"dialog\", lambda dialog: dialog.{method}())"]
  | .performWaiting page waits op => nest awaits page waits [awaiting awaits ++ operation op]
  | .wait page w =>
    [s!"{variableOf w} = {awaiting awaits}{page}.wait_for_event({eventOf w})"]

/-- The line that opens the root page. -/
def rootLines (awaits : Bool) (root : Option String) : List String :=
  indent "    " (root.toList.flatMap fun page => statement awaits "context" (.openPage page))

/-- **Scripts.** -/
def script : Language where
  tag := "python"
  name := "Python"
  header root :=
    ["import re",
      "from playwright.sync_api import Playwright, sync_playwright, expect",
      "",
      "",
      "def run(playwright: Playwright) -> None:",
      "    browser = playwright.chromium.launch(headless=False)",
      "    context = browser.new_context()"] ++ rootLines false root
  footer :=
    ["",
      "    # ---------------------",
      "    context.close()",
      "    browser.close()",
      "",
      "",
      "with sync_playwright() as playwright:",
      "    run(playwright)"]
  bodyIndent := "    "
  statement _ := statement false "context"

/-- **Asynchronous scripts.** -/
def asyncScript : Language where
  tag := "python-async"
  name := "Python Async"
  header root :=
    ["import asyncio",
      "import re",
      "from playwright.async_api import Playwright, async_playwright, expect",
      "",
      "",
      "async def run(playwright: Playwright) -> None:",
      "    browser = await playwright.chromium.launch(headless=False)",
      "    context = await browser.new_context()"] ++ rootLines true root
  footer :=
    ["",
      "    # ---------------------",
      "    await context.close()",
      "    await browser.close()",
      "",
      "",
      "async def main() -> None:",
      "    async with async_playwright() as playwright:",
      "        await run(playwright)",
      "",
      "",
      "asyncio.run(main())"]
  bodyIndent := "    "
  statement _ := statement true "context"

/-- **Test functions.** -/
def test : Language where
  tag := "python-pytest"
  name := "Pytest"
  header
    | some page =>
      ["import re",
        "from playwright.sync_api import Page, expect",
        "",
        "",
        s!"def test_example({page}: Page) -> None:"]
    | none =>
      ["import re",
        "from playwright.sync_api import BrowserContext, expect",
        "",
        "",
        "def test_example(context: BrowserContext) -> None:"]
  footer := []
  bodyIndent := "    "
  emptyBody := some "pass"
  statement root := statement false (root.elim "context" fun page => s!"{page}.context")

end Scribe.Program.Python
