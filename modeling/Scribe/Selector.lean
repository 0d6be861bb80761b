/-!
# Selectors

What tells an element of a page apart, independently of the language of the generated program.
`Scribe.Selector.describe` puts a selector into words for comments.
-/

namespace Scribe

/-- **A selector** names an element by one strategy. -/
inductive Selector where
  /-- By the value of the attribute set aside for tests. -/
  | testId (value : String)
  /-- By role and accessible name; an exact name has to agree as a whole. -/
  | role (role : String) (name : Option String) (exact : Bool)
  /-- By the text of the label that belongs to the element. -/
  | label (text : String)
  /-- By the placeholder of a text field. -/
  | placeholder (text : String)
  /-- By the visible text. -/
  | text (text : String)
  /-- By a CSS selector; a structural one is the path to the element and serves as last resort. -/
  | css (css : String) (structural : Bool)
  deriving Repr, DecidableEq

namespace Selector

/-- The name of the strategy. -/
def strategy : Selector → String
  | testId _ => "testId"
  | role _ _ _ => "role"
  | label _ => "label"
  | placeholder _ => "placeholder"
  | text _ => "text"
  | css _ _ => "css"

/-- Whether the selector is the path to its element. -/
def isStructural : Selector → Bool
  | css _ structural => structural
  | _ => false

/-- **A selector in words.** -/
def describe : Selector → String
  | .testId value => s!"testId='{value}'"
  | .role kind (some name) exact =>
    s!"role='{kind}', name='{name}'" ++ (if exact then ", exact" else "")
  | .role kind none _ => s!"role='{kind}'"
  | .label words => s!"label='{words}'"
  | .placeholder words => s!"placeholder='{words}'"
  | .text words => s!"text='{words}'"
  | .css path _ => s!"css='{path}'"

/-- A selector in words, where there may be none. -/
def describe? : Option Selector → String
  | none => "(none)"
  | some s => s.describe

end Selector

end Scribe
