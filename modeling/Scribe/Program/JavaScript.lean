import Scribe.Program.Language

/-!
# JavaScript programs

Two languages: a script on its own, and a test for a test runner, which hands the root page or the
browser context to the test.
-/

namespace Scribe.Program.JavaScript

/-- A string literal. -/
def literal (s : String) : String :=
  Text.quoted .javaScript s

/-- An array of string literals. -/
def array (items : List String) : String :=
  s!"[{commaList (items.map literal)}]"

/-- One string literal for a single item, and an array otherwise. -/
def oneOrMany : List String → String
  | [item] => literal item
  | items => array items

/-- The call that finds an element. -/
def selectorCall : Selector → String
  | .testId value => s!"getByTestId({literal value})"
  | .role kind name exact =>
    let options := (name.map fun n => s!"name: {literal n}").toList ++
      if exact then ["exact: true"] else []
    match options with
    | [] => s!"getByRole({literal kind})"
    | options => s!"getByRole({literal kind}, \x7b {commaList options} \x7d)"
  | .label text => s!"getByLabel({literal text})"
  | .placeholder text => s!"getByPlaceholder({literal text})"
  | .text text => s!"getByText({literal text})"
  | .css css _ => s!"locator({literal css})"

/-- The expression that reaches an element. -/
def locator (t : Target) : String :=
  ".".intercalate (t.page :: t.frames.map (fun css => s!"frameLocator({literal css})") ++
    [selectorCall t.selector])

/-- The options of a click, each on a line of its own and with a comma unless it is the last. -/
def optionLines : List String → List String
  | [] => []
  | [option] => [s!"  {option}"]
  | option :: rest => s!"  {option}," :: optionLines rest

/-- The lines of a click. -/
def click (t : Target) (button : String) (count : Int) (modifiers : List String) : List String :=
  let method := if count == 2 then "dblclick" else "click"
  let options :=
    (if button == "left" then [] else [s!"button: {literal button}"]) ++
    (if modifiers.isEmpty then [] else [s!"modifiers: {array modifiers}"]) ++
    (if count > 2 then [s!"clickCount: {count}"] else [])
  match options with
  | [] => [s!"{locator t}.{method}()"]
  | options => s!"{locator t}.{method}(\x7b" :: optionLines options ++ ["\x7d)"]

/-- The lines of an operation. -/
def operation : Operation → List String
  | .close page => [s!"{page}.close()"]
  | .navigate page url => [s!"{page}.goto({literal url})"]
  | .click t button count modifiers => click t button count modifiers
  | .fill t text => [s!"{locator t}.fill({literal text})"]
  | .check t on => [locator t ++ (if on then ".check()" else ".uncheck()")]
  | .press t key => [s!"{locator t}.press({literal key})"]
  | .setFiles t files => [s!"{locator t}.setInputFiles({oneOrMany files})"]
  | .select t options => [s!"{locator t}.selectOption({oneOrMany options})"]

/-- An operation as a statement. -/
def performed (op : Operation) : List String :=
  startWith "await " (endWith ";" (operation op))

/-- The variable that receives what is waited for. -/
def variableOf : Wait → String
  | .popup v => v
  | .download v => v

/-- The event that is waited for. -/
def eventOf : Wait → String
  | .popup _ => literal "popup"
  | .download _ => literal "download"

/-- **The lines of a statement**, new pages being opened in the given context. -/
def statement (context : String) : Statement → List String
  | .comment text => [s!"// {text}"]
  | .openPage page => [s!"const {page} = await {context}.newPage();"]
  | .perform op => performed op
  | .answerDialog page dismiss _ =>
    let method := if dismiss then "dismiss" else "accept"
    [s!"{page}.once('dialog', dialog => \x7b",
      "  console.log(`Dialog message: $\x7bdialog.message()\x7d`);",
      s!"  dialog.{method}().catch(() => \x7b\x7d);",
      "\x7d);"]
  | .performWaiting page waits op =>
    [s!"const [{commaList (waits.map variableOf)}] = await Promise.all(["] ++
      waits.map (fun w => s!"  {page}.waitForEvent({eventOf w}),") ++
      indent "  " (operation op) ++ ["]);"]
  | .wait page w => [s!"const {variableOf w} = await {page}.waitForEvent({eventOf w});"]

/-- **Scripts.** -/
def script : Language where
  tag := "javascript"
  name := "JavaScript"
  header root :=
    ["const \x7b chromium \x7d = require('playwright');",
      "",
      "(async () => \x7b",
      "  const browser = await chromium.launch(\x7b",
      "    headless: false",
      "  \x7d);",
      "  const context = await browser.newContext();"] ++
      indent "  " (root.toList.flatMap fun page => statement "context" (.openPage page))
  footer :=
    ["",
      "  // ---------------------",
      "  await context.close();",
      "  await browser.close();",
      "\x7d)();"]
  bodyIndent := "  "
  statement _ := statement "context"

/-- **Tests.** -/
def test : Language where
  tag := "playwright-test"
  name := "Playwright Test"
  header root :=
    let fixture := root.getD "context"
    ["import \x7b test, expect \x7d from '@playwright/test';",
      "",
      s!"test('test', async (\x7b {fixture} \x7d) => \x7b"]
  footer := ["\x7d);"]
  bodyIndent := "  "
  statement root := statement (root.elim "context" fun page => s!"{page}.context()")

end Scribe.Program.JavaScript
