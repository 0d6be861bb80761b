/-!
# YAML tokens

**Tokens** are the smallest pieces of a YAML text that have a meaning of their own. Some of them
have no characters: where a block collection starts and ends is told by the indentation, and the
token for a key precedes what turns out to be a key.
-/

namespace Scribe.Yaml

/-- **What a directive says.** -/
inductive Directive where
  /-- The version of the format. -/
  | version (major minor : Nat)
  /-- A tag handle and what it stands for. -/
  | handle (name stem : String)
  /-- Something that has no effect. -/
  | other
  deriving Repr, DecidableEq

/-- **Tokens.** -/
inductive Token where
  | directive (d : Directive)
  | documentStart
  | documentEnd
  | blockListStart
  | blockMapStart
  | blockEnd
  | flowListStart
  | flowListEnd
  | flowMapStart
  | flowMapEnd
  | blockEntry
  | flowEntry
  | key
  | value
  | aliasTo (name : String)
  | anchor (name : String)
  /-- A tag, by a handle or in full. -/
  | tag (handle : Option String) (suffix : String)
  /-- A scalar, and whether it stands without quotes or a block header. -/
  | scalar (plain : Bool) (text : String)
  deriving Repr, DecidableEq

end Scribe.Yaml
