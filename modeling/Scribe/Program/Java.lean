import Scribe.Program.Language

/-!
# Java programs

A class with a `main` method.
-/

namespace Scribe.Program.Java

/-- A string literal. -/
def literal (s : String) : String :=
  Text.quoted .java s

/-- The call that finds an element, in a page or in a frame. -/
def selectorCall (inFrame : Bool) : Selector → String
  | .testId value => s!"getByTestId({literal value})"
  | .role kind name exact =>
    let role := s!"AriaRole.{Text.uppered kind}"
    let setters := (name.elim "" fun n => s!".setName({literal n})") ++
      (if exact then ".setExact(true)" else "")
    let owner := if inFrame then "FrameLocator" else "Page"
    if setters.isEmpty then s!"getByRole({role})"
    else s!"getByRole({role}, new {owner}.GetByRoleOptions(){setters})"
  | .label text => s!"getByLabel({literal text})"
  | .placeholder text => s!"getByPlaceholder({literal text})"
  | .text text => s!"getByText({literal text})"
  | .css css _ => s!"locator({literal css})"

/-- The expression that reaches an element. -/
def locator (t : Target) : String :=
  ".".intercalate (t.page :: t.frames.map (fun css => s!"frameLocator({literal css})") ++
    [selectorCall (!t.frames.isEmpty) t.selector])

/-- The lines of a click. -/
def click (t : Target) (button : String) (count : Int) (modifiers : List String) : List String :=
  let double := count == 2
  let method := if double then "dblclick" else "click"
  let held := commaList (modifiers.map fun m => s!"KeyboardModifier.{Text.uppered m}")
  let setters :=
    (if button == "left" then [] else [s!".setButton(MouseButton.{Text.uppered button})"]) ++
    (if modifiers.isEmpty then [] else [s!".setModifiers(Arrays.asList({held}))"]) ++
    (if count > 2 then [s!".setClickCount({count})"] else [])
  let options := if double then "DblclickOptions" else "ClickOptions"
  match setters with
  | [] => [s!"{locator t}.{method}()"]
  | setters =>
    endWith ")" (s!"{locator t}.{method}(new Locator.{options}()" ::
      setters.map fun setter => s!"  {setter}")

/-- The files of a file field. -/
def fileList : List String → String
  | [] => "new Path[0]"
  | [file] => s!"Paths.get({literal file})"
  | files =>
    let paths := files.map fun file => s!"Paths.get({literal file})"
    s!"new Path[] \x7b{commaList paths}\x7d"

/-- The values of a selection. -/
def optionList : List String → String
  | [] => "new String[0]"
  | [option] => literal option
  | options => s!"new String[] \x7b{commaList (options.map literal)}\x7d"

/-- The lines of an operation. -/
def operation : Operation → List String
  | .close page => [s!"{page}.close()"]
  | .navigate page url => [s!"{page}.navigate({literal url})"]
  | .click t button count modifiers => click t button count modifiers
  | .fill t text => [s!"{locator t}.fill({literal text})"]
  | .check t on => [locator t ++ (if on then ".check()" else ".uncheck()")]
  | .press t key => [s!"{locator t}.press({literal key})"]
  | .setFiles t files => [s!"{locator t}.setInputFiles({fileList files})"]
  | .select t options => [s!"{locator t}.selectOption({optionList options})"]

/-- The declaration of the variable that receives what is waited for. -/
def declaration : Wait → String
  | .popup v => s!"Page {v}"
  | .download v => s!"Download {v}"

/-- The call that waits. -/
def waitMethod : Wait → String
  | .popup _ => "waitForPopup"
  | .download _ => "waitForDownload"

/-- Lines inside the blocks that wait, the first wait being the outermost. -/
def nest (page : String) : List Wait → List String → List String
  | [], inner => inner
  | w :: waits, inner =>
    s!"{declaration w} = {page}.{waitMethod w}(() -> \x7b" ::
      indent "  " (nest page waits inner) ++ ["\x7d);"]

/-- **The lines of a statement.** -/
def statement : Statement → List String
  | .comment text => [s!"// {text}"]
  | .openPage page => [s!"Page {page} = context.newPage();"]
  | .perform op => endWith ";" (operation op)
  | .answerDialog page dismiss _ =>
    let method := if dismiss then "dismiss" else "accept"
    [s!"{page}.onceDialog(dialog -> \x7b",
      "  System.out.println(String.format(\"Dialog message: %s\", dialog.message()));",
      s!"  dialog.{method}();",
      "\x7d);"]
  | .performWaiting page waits op => nest page waits (endWith ";" (operation op))
  | .wait page w => [s!"{declaration w} = {page}.{waitMethod w}(() -> \x7b\x7d);"]

/-- **Classes.** -/
def program : Language where
  tag := "java"
  name := "Java"
  header root :=
    ["import com.microsoft.playwright.*;",
      "import com.microsoft.playwright.options.*;",
      "import static com.microsoft.playwright.assertions.PlaywrightAssertions.assertThat;",
      "import java.nio.file.Path;",
      "import java.nio.file.Paths;",
      "import java.util.*;",
      "",
      "public class Example \x7b",
      "  public static void main(String[] args) \x7b",
      "    try (Playwright playwright = Playwright.create()) \x7b",
      "      Browser browser = playwright.chromium().launch(new BrowserType.LaunchOptions()",
      "        .setHeadless(false));",
      "      BrowserContext context = browser.newContext();"] ++
      indent "      " (root.toList.flatMap fun page => statement (.openPage page))
  footer :=
    ["    \x7d",
      "  \x7d",
      "\x7d"]
  bodyIndent := "      "
  statement _ := statement

end Scribe.Program.Java
