import Scribe.Program.Language

/-!
# C# programs

A class with an asynchronous `Main` method. Downloads are numbered from one on here, while the log
leaves the first one without a number (`Scribe.Program.CSharp.downloadVariable`).
-/

namespace Scribe.Program.CSharp

/-- A string literal. -/
def literal (s : String) : String :=
  Text.quoted .csharp s

/-- An array of string literals. -/
def array (items : List String) : String :=
  s!"new[] \x7b {commaList (items.map literal)} \x7d"

/-- The name of a role: its first letter large and the others small. -/
def roleName (role : String) : String :=
  match role.toList with
  | [] => ""
  | c :: rest => String.ofList (Text.upperChar c ++ Text.lower rest)

/-- The call that finds an element. -/
def selectorCall : Selector → String
  | .testId value => s!"GetByTestId({literal value})"
  | .role kind name exact =>
    let role := s!"AriaRole.{roleName kind}"
    let options := (name.map fun n => s!"NameString = {literal n}").toList ++
      if exact then ["Exact = true"] else []
    match options with
    | [] => s!"GetByRole({role})"
    | options => s!"GetByRole({role}, new() \x7b {commaList options} \x7d)"
  | .label text => s!"GetByLabel({literal text})"
  | .placeholder text => s!"GetByPlaceholder({literal text})"
  | .text text => s!"GetByText({literal text})"
  | .css css _ => s!"Locator({literal css})"

/-- The expression that reaches an element. -/
def locator (t : Target) : String :=
  ".".intercalate (t.page :: t.frames.map (fun css => s!"FrameLocator({literal css})") ++
    [selectorCall t.selector])

/-- The lines of a click. -/
def click (t : Target) (button : String) (count : Int) (modifiers : List String) : List String :=
  let double := count == 2
  let method := if double then "DblClickAsync" else "ClickAsync"
  let held := commaList (modifiers.map fun m => s!"KeyboardModifier.{m}")
  let options :=
    (if button == "left" then [] else
      [s!"Button = MouseButton.{Text.capitalized button}"]) ++
    (if modifiers.isEmpty then [] else [s!"Modifiers = new[] \x7b {held} \x7d"]) ++
    (if count > 2 then [s!"ClickCount = {count}"] else [])
  let optionClass := if double then "LocatorDblClickOptions" else "LocatorClickOptions"
  match options with
  | [] => [s!"{locator t}.{method}()"]
  | options =>
    s!"{locator t}.{method}(new {optionClass}" :: "\x7b" ::
      options.map (fun option => s!"    {option},") ++ ["\x7d)"]

/-- The lines of an operation. -/
def operation : Operation → List String
  | .close page => [s!"{page}.CloseAsync()"]
  | .navigate page url => [s!"{page}.GotoAsync({literal url})"]
  | .click t button count modifiers => click t button count modifiers
  | .fill t text => [s!"{locator t}.FillAsync({literal text})"]
  | .check t on => [locator t ++ (if on then ".CheckAsync()" else ".UncheckAsync()")]
  | .press t key => [s!"{locator t}.PressAsync({literal key})"]
  | .setFiles t files => [s!"{locator t}.SetInputFilesAsync({array files})"]
  | .select t options => [s!"{locator t}.SelectOptionAsync({array options})"]

/-- An operation as a statement. -/
def performed (op : Operation) : List String :=
  startWith "await " (endWith ";" (operation op))

/-- **The variable of a download**: the number at the end of its alias, none counting as zero, goes
up by one. -/
def downloadVariable (download : String) : String :=
  let reversed := download.toList.reverse
  let digits := (reversed.takeWhile Char.isDigit).reverse
  let stem := (reversed.dropWhile Char.isDigit).reverse
  String.ofList (stem ++ Text.natText (Text.ofDigits 10 (digits.map fun c => c.toNat - 48) + 1))

/-- The variable that receives what is waited for. -/
def variableOf : Wait → String
  | .popup v => v
  | .download v => downloadVariable v

/-- The call that waits while something is done. -/
def runMethod : Wait → String
  | .popup _ => "RunAndWaitForPopupAsync"
  | .download _ => "RunAndWaitForDownloadAsync"

/-- The call that waits. -/
def waitMethod : Wait → String
  | .popup _ => "WaitForPopupAsync"
  | .download _ => "WaitForDownloadAsync"

/-- Lines inside the blocks that wait, the first wait being the outermost. -/
def nest (page : String) : List Wait → List String → List String
  | [], inner => inner
  | w :: waits, inner =>
    s!"var {variableOf w} = await {page}.{runMethod w}(async () =>" :: "\x7b" ::
      indent "    " (nest page waits inner) ++ ["\x7d);"]

/-- **The lines of a statement.** -/
def statement : Statement → List String
  | .comment text => [s!"// {text}"]
  | .openPage page => [s!"var {page} = await context.NewPageAsync();"]
  | .perform op => performed op
  | .answerDialog page dismiss number =>
    let method := if dismiss then "DismissAsync" else "AcceptAsync"
    let handler := s!"{page}_Dialog{number}_EventHandler"
    [s!"void {handler}(object sender, IDialog dialog)",
      "\x7b",
      "    Console.WriteLine($\"Dialog message: \x7bdialog.Message\x7d\");",
      s!"    dialog.{method}();",
      s!"    {page}.Dialog -= {handler};",
      "\x7d",
      s!"{page}.Dialog += {handler};"]
  | .performWaiting page waits op => nest page waits (performed op)
  | .wait page w => [s!"var {variableOf w} = await {page}.{waitMethod w}();"]

/-- **Classes.** -/
def program : Language where
  tag := "csharp"
  name := "C#"
  header root :=
    ["using Microsoft.Playwright;",
      "using System;",
      "using System.Threading.Tasks;",
      "",
      "class Program",
      "\x7b",
      "    public static async Task Main()",
      "    \x7b",
      "        using var playwright = await Playwright.CreateAsync();",
      "        await using var browser = await playwright.Chromium.LaunchAsync(" ++
        "new BrowserTypeLaunchOptions",
      "        \x7b",
      "            Headless = false,",
      "        \x7d);",
      "        var context = await browser.NewContextAsync();"] ++
      indent "        " (root.toList.flatMap fun page => statement (.openPage page))
  footer :=
    ["    \x7d",
      "\x7d"]
  bodyIndent := "        "
  statement _ := statement

end Scribe.Program.CSharp
