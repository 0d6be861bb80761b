/-!
# What is wrong with a YAML text

A text can be **malformed**, and then it denotes nothing at all; or it is well formed and a scalar
in it is **unreadable** as what its tag says. Only the second kind of fault has a wording, since
only there the reader tells what it stumbled over.
-/

namespace Scribe.Yaml

/-- **How a text is malformed.** -/
inductive Malformation where
  /-- A character that no text may hold. -/
  | character
  /-- A character at which no token starts. -/
  | noToken
  /-- A key that its colon does not follow in time. -/
  | keyWithoutColon
  /-- An entry, a key or a value where none may stand. -/
  | misplaced
  /-- A directive that is not written as one. -/
  | directive
  /-- An anchor or alias without a proper name. -/
  | anchor
  /-- A tag that is not written as one. -/
  | tag
  /-- A block scalar with a bad header or bad indentation. -/
  | blockScalar
  /-- A quoted scalar that does not end. -/
  | openQuote
  /-- An escape that stands for nothing. -/
  | escape
  /-- Tokens that make no document. -/
  | arrangement
  /-- A tag handle that no directive declares. -/
  | unknownHandle
  /-- An alias of nothing. -/
  | unknownAlias
  /-- More than one document. -/
  | severalDocuments
  /-- A key that its map has already. -/
  | repeatedKey
  /-- A map that is used as a key. -/
  | mapKey
  /-- A tag that stands for no type. -/
  | unknownTag
  /-- A tag at a node of another shape. -/
  | wrongShape
  /-- Something merged into a map that has no entries. -/
  | merge
  deriving Repr, DecidableEq

/-- **What a scalar cannot be read as.** -/
inductive Unreadable where
  /-- No integer in the base. -/
  | integer (base : Nat) (text : String)
  /-- No number in floating point. -/
  | number (text : String)
  /-- Neither true nor false. -/
  | truth (text : String)
  /-- A date that is in no calendar, with the part that is at fault. -/
  | date (part : String)
  /-- A number without a character. -/
  | nothing
  /-- A key with a list or a map inside. -/
  | key
  deriving Repr, DecidableEq

/-- **What is wrong with a text.** -/
inductive Fault where
  | malformed (m : Malformation)
  | unreadable (u : Unreadable)
  deriving Repr, DecidableEq

/-- What a scalar cannot be read as, in words. -/
def Unreadable.message : Unreadable → String
  | integer base text => s!"invalid literal for int() with base {base}: '{text}'"
  | number text => s!"could not convert string to float: '{text}'"
  | truth text => text
  | date part => part
  | nothing => "string index out of range"
  | key => "unhashable type"

end Scribe.Yaml
