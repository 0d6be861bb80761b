import Scribe.Program.CSharp
import Scribe.Program.Java
import Scribe.Program.JavaScript
import Scribe.Program.Python

/-!
# The catalog of emitters

**Emitters** turn a log into the text of a program. The catalog holds them by tag, in the order in
which the tags were first registered. `Scribe.Program.Catalog.standard` holds the seven languages
that come with the library.
-/

namespace Scribe.Program

/-- **An emitter.** -/
structure Emitter where
  /-- The tag by which it is chosen. -/
  tag : String
  /-- The name that is shown. -/
  name : String
  /-- The word for the emitter itself in warnings. -/
  label : String
  /-- The text of a program. -/
  render : List Action → AliasTable → String

/-- The emitter of a language. -/
def Language.emitter (l : Language) (label : String) : Emitter where
  tag := l.tag
  name := l.name
  label := label
  render := l.render

/-- **What is offered to the catalog.** It is an emitter only if it has all three parts. -/
structure Offer where
  label : String
  tag : Option String := none
  name : Option String := none
  render : Option (List Action → AliasTable → String) := none

/-- The emitter of an offer that has all its parts. -/
def Offer.emitter? (o : Offer) : Option Emitter :=
  match o.tag, o.name, o.render with
  | some tag, some name, some render => some ⟨tag, name, o.label, render⟩
  | _, _, _ => none

/-- The offer of an emitter. -/
def Emitter.offer (e : Emitter) : Offer :=
  ⟨e.label, some e.tag, some e.name, some e.render⟩

/-- **What the catalog refuses.** -/
inductive CatalogError where
  /-- What was offered is no emitter. -/
  | notAnEmitter (label : String)
  /-- No emitter has the tag. -/
  | unknownTag (tag : String) (registered : List String)
  deriving Repr, DecidableEq

/-- An error in words. -/
def CatalogError.message : CatalogError → String
  | notAnEmitter label =>
    s!"emitter は LanguageEmitter Protocol を満たす必要があります: {label}"
  | unknownTag tag registered =>
    s!"出力言語 '{tag}' は未登録です。登録済み: {commaList registered}"

/-- **A warning**: an emitter took the place of another. -/
structure Replaced where
  tag : String
  old : String
  new : String
  deriving Repr, DecidableEq

/-- A warning in words. -/
def Replaced.message (r : Replaced) : String :=
  s!"出力言語 '{r.tag}' のエミッタを上書きします（既存: {r.old} → 新規: {r.new}）"

/-- **The catalog**: its emitters, each tag once. -/
structure Catalog where
  emitters : List Emitter := []

namespace Catalog

/-- The tags in order. -/
def tags (c : Catalog) : List String :=
  c.emitters.map (·.tag)

/-- Whether an emitter has the tag. -/
def contains (c : Catalog) (tag : String) : Bool :=
  c.emitters.any (·.tag == tag)

/-- The emitter with a tag. -/
def get? (c : Catalog) (tag : String) : Option Emitter :=
  c.emitters.find? (·.tag == tag)

/-- **The emitter with a tag**, or what is wrong with the tag. -/
def get (c : Catalog) (tag : String) : Except CatalogError Emitter :=
  match c.get? tag with
  | some e => .ok e
  | none => .error (.unknownTag tag c.tags)

/-- The catalog with an emitter, which takes the place of the one with its tag. -/
def insert (c : Catalog) (e : Emitter) : Catalog :=
  if c.contains e.tag then ⟨c.emitters.map fun f => if f.tag == e.tag then e else f⟩
  else ⟨c.emitters ++ [e]⟩

/-- **Registers an offer**, with a warning if it took the place of another emitter. -/
def register (c : Catalog) (o : Offer) : Except CatalogError (Catalog × Option Replaced) :=
  match o.emitter? with
  | none => .error (.notAnEmitter o.label)
  | some e => .ok (c.insert e, (c.get? e.tag).map fun old => ⟨e.tag, old.label, e.label⟩)

/-- **The languages that come with the library.** -/
def standard : Catalog where
  emitters := [
    JavaScript.script.emitter "JavaScriptEmitter",
    JavaScript.test.emitter "PlaywrightTestEmitter",
    Python.script.emitter "PythonEmitter",
    Python.asyncScript.emitter "PythonAsyncEmitter",
    Python.test.emitter "PytestEmitter",
    Java.program.emitter "JavaEmitter",
    CSharp.program.emitter "CSharpEmitter"]

end Catalog

end Scribe.Program
