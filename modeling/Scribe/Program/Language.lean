import Scribe.Program.Plan
import Scribe.Text.Case
import Scribe.Text.Quoted

/-!
# Languages

**A language** turns a plan into lines: it has a header, a footer, and lines for each statement.
`Scribe.Program.Language.render` puts them together. Lines are indented unless they are empty.
-/

namespace Scribe.Program

/-- Items with a comma and a space between each two. -/
def commaList (items : List String) : String :=
  ", ".intercalate items

/-- Lines, each behind an indent unless it is empty. -/
def indent (margin : String) (lines : List String) : List String :=
  lines.map fun line => if line.isEmpty then line else margin ++ line

/-- The lines with a text in front of the first one. -/
def startWith (start : String) : List String → List String
  | [] => []
  | line :: rest => (start ++ line) :: rest

/-- The lines with a text behind the last one. -/
def endWith (stop : String) : List String → List String
  | [] => []
  | [line] => [line ++ stop]
  | line :: rest => line :: endWith stop rest

/-- **A language** of generated programs. -/
structure Language where
  /-- The tag by which the language is chosen. -/
  tag : String
  /-- The name of the language. -/
  name : String
  /-- The lines before the actions; they see to the root page. -/
  header : Option String → List String
  /-- The lines after the actions. -/
  footer : List String
  /-- The indent of the actions. -/
  bodyIndent : String
  /-- The line of a body without actions, if it cannot be left empty. -/
  emptyBody : Option String := none
  /-- The lines of a statement in a program with the given root page. -/
  statement : Option String → Statement → List String

namespace Language

/-- The lines of the actions, without their indent. -/
def body (l : Language) (actions : List Action) (aliases : AliasTable) : List String :=
  match (plan aliases.root actions).flatMap (l.statement aliases.root) with
  | [] => l.emptyBody.toList
  | lines => lines

/-- **The lines of a program.** -/
def lines (l : Language) (actions : List Action) (aliases : AliasTable) : List String :=
  l.header aliases.root ++ indent l.bodyIndent (l.body actions aliases) ++ l.footer

/-- **The text of a program.** -/
def render (l : Language) (actions : List Action) (aliases : AliasTable) : String :=
  "\n".intercalate (l.lines actions aliases) ++ "\n"

end Language

end Scribe.Program
