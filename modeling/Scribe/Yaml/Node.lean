import Scribe.Yaml.Fault
import Scribe.Yaml.Token

/-!
# YAML nodes

**A node** is a scalar, a list or a map, with its tag. `Scribe.Yaml.documentNode?` arranges tokens
into the node of a document; a stream without one has none. Aliases are resolved on the way: an
alias becomes the node that its anchor names.

The functions that arrange tokens call each other on smaller stretches of them, and each call is
counted down from the number of tokens.
-/

namespace Scribe.Yaml

/-- **Nodes.** -/
inductive Node where
  /-- A scalar, and whether it stands without quotes or a block header. -/
  | scalar (tag : Option String) (plain : Bool) (text : String)
  | list (tag : Option String) (items : List Node)
  | map (tag : Option String) (entries : List (Node × Node))
  /-- An alias inside the very list or map that it names. -/
  | loop (isList : Bool)
  deriving Inhabited

/-- The node where nothing is written. -/
def Node.empty : Node :=
  .scalar none true ""

/-- **What an anchor names**: a node, or a collection that is still being read. -/
inductive Anchored where
  | node (n : Node)
  | unfinished (id : Nat) (isList : Bool)

/-- **The state of the arrangement.** -/
structure Arrangement where
  /-- The tokens that are left. -/
  tokens : List Token
  /-- The tag handles and what they stand for. -/
  handles : List (String × String)
  /-- The anchors, the latest first. -/
  anchors : List (String × Anchored) := []
  /-- How many collections have been named. -/
  named : Nat := 0

/-- A step of the arrangement. -/
abbrev Arrange (α : Type) := StateT Arrangement (Except Fault) α

namespace Arrange

/-- Tokens that fit nowhere. -/
def misfit {α : Type} : Arrange α :=
  throw (.malformed .arrangement)

/-- The next token. -/
def peek : Arrange (Option Token) := do
  return (← get).tokens.head?

/-- Passes a token. -/
def advance : Arrange Unit :=
  modify fun s => { s with tokens := s.tokens.tail }

/-- Passes the token if it comes next. -/
def skip? (t : Token) : Arrange Bool := do
  if (← peek) == some t then
    advance
    return true
  else return false

/-- Passes the token, which must come next. -/
def expect (t : Token) : Arrange Unit := do
  if !(← skip? t) then misfit

/-- Whether one of the tokens comes next. -/
def comes (ts : List Token) : Arrange Bool := do
  return (← peek).elim false ts.contains

/-! ### Properties -/

/-- Names a node that is complete. -/
def name (anchor : Option String) (n : Node) : Arrange Node := do
  match anchor with
  | some a => modify fun s => { s with anchors := (a, .node n) :: s.anchors }
  | none => pure ()
  return n

/-- Names a list or map while it is being read. -/
def naming (anchor : Option String) (isList : Bool) (read : Arrange Node) : Arrange Node := do
  match anchor with
  | none => read
  | some a =>
    let id := (← get).named
    modify fun s => { s with
      anchors := (a, .unfinished id isList) :: s.anchors, named := id + 1 }
    let n ← read
    modify fun s => { s with
      anchors := s.anchors.map fun e =>
        match e.2 with
        | .unfinished i _ => if i == id then (e.1, .node n) else e
        | .node _ => e }
    return n

/-- What an alias stands for. -/
def resolve (a : String) : Arrange Node := do
  match (← get).anchors.lookup a with
  | some (.node n) => return n
  | some (.unfinished _ isList) => return .loop isList
  | none => throw (.malformed .unknownAlias)

/-- A tag in full. -/
def fullTag (handle : Option String) (suffix : String) : Arrange String := do
  match handle with
  | none => return suffix
  | some h =>
    match (← get).handles.lookup h with
    | some stem => return stem ++ suffix
    | none => throw (.malformed .unknownHandle)

/-- An anchor, if one comes next. -/
def anchor? : Arrange (Option String) := do
  match ← peek with
  | some (.anchor a) =>
    advance
    return some a
  | _ => return none

/-- A tag, if one comes next. -/
def tag? : Arrange (Option String) := do
  match ← peek with
  | some (.tag handle suffix) =>
    advance
    return some (← fullTag handle suffix)
  | _ => return none

/-- **The properties of a node**: an anchor and a tag, in any order. -/
def properties : Arrange (Option String × Option String) := do
  match ← anchor? with
  | some a => return (some a, ← tag?)
  | none =>
    match ← tag? with
    | none => return (none, none)
    | some t => return (← anchor?, some t)

/-! ### Nodes -/

/-- **Where a node stands.** -/
inductive Place where
  /-- In a block collection, or alone. -/
  | block
  /-- After a key or value indicator of a block map, where the entries of a list need not be
  indented. -/
  | mapBlock
  /-- In a flow collection. -/
  | flow
  deriving Repr, DecidableEq

/-- A node of which only the properties are written. -/
def emptyNode (anchor tag : Option String) : Arrange Node :=
  if anchor.isSome || tag.isSome then name anchor (.scalar tag true "") else misfit

mutual

/-- **A node.** -/
def node : Nat → Place → Arrange Node
  | 0, _ => misfit
  | n + 1, place => do
    match ← peek with
    | some (.aliasTo a) =>
      advance
      resolve a
    | _ =>
      let (anchor, tag) ← properties
      match ← peek with
      | some (.scalar plain text) =>
        advance
        name anchor (.scalar tag (if tag == some "!" then true else plain) text)
      | some .flowListStart =>
        advance
        naming anchor true (do return .list tag (← flowItems n true))
      | some .flowMapStart =>
        advance
        naming anchor false (do return .map tag (← flowEntries n true))
      | some .blockEntry =>
        if place == .mapBlock then
          naming anchor true (do return .list tag (← looseItems n))
        else emptyNode anchor tag
      | some .blockListStart =>
        if place == .flow then emptyNode anchor tag
        else
          advance
          naming anchor true (do return .list tag (← blockItems n))
      | some .blockMapStart =>
        if place == .flow then emptyNode anchor tag
        else
          advance
          naming anchor false (do return .map tag (← blockEntries n))
      | _ => emptyNode anchor tag

/-- A node, or the empty one if one of the tokens comes instead. -/
def nodeUnless : Nat → Place → List Token → Arrange Node
  | 0, _, _ => misfit
  | n + 1, place, ends => do
    if ← comes ends then return .empty else node n place

/-- The items of a block list. -/
def blockItems : Nat → Arrange (List Node)
  | 0 => misfit
  | n + 1 => do
    if ← skip? .blockEntry then
      let x ← nodeUnless n .block [.blockEntry, .blockEnd]
      return x :: (← blockItems n)
    else
      expect .blockEnd
      return []

/-- The items of a block list that is not indented. -/
def looseItems : Nat → Arrange (List Node)
  | 0 => misfit
  | n + 1 => do
    if ← skip? .blockEntry then
      let x ← nodeUnless n .block [.blockEntry, .key, .value, .blockEnd]
      return x :: (← looseItems n)
    else return []

/-- The entries of a block map. -/
def blockEntries : Nat → Arrange (List (Node × Node))
  | 0 => misfit
  | n + 1 => do
    if ← skip? .key then
      let k ← nodeUnless n .mapBlock [.key, .value, .blockEnd]
      let v ← blockValue n
      return (k, v) :: (← blockEntries n)
    else if ← comes [.value] then
      let v ← blockValue n
      return (.empty, v) :: (← blockEntries n)
    else
      expect .blockEnd
      return []

/-- The value after a key of a block map. -/
def blockValue : Nat → Arrange Node
  | 0 => misfit
  | n + 1 => do
    if ← skip? .value then nodeUnless n .mapBlock [.key, .value, .blockEnd] else return .empty

/-- The items of a flow list, separated by commas. A key makes a map of one entry. -/
def flowItems : Nat → Bool → Arrange (List Node)
  | 0, _ => misfit
  | n + 1, first => do
    if ← skip? .flowListEnd then return []
    else
      if !first then expect .flowEntry
      if ← skip? .key then
        let k ← nodeUnless n .flow [.value, .flowEntry, .flowListEnd]
        let v ← flowValue n .flowListEnd
        return .map none [(k, v)] :: (← flowItems n false)
      else if ← skip? .flowListEnd then return []
      else
        let x ← node n .flow
        return x :: (← flowItems n false)

/-- The entries of a flow map, separated by commas. -/
def flowEntries : Nat → Bool → Arrange (List (Node × Node))
  | 0, _ => misfit
  | n + 1, first => do
    if ← skip? .flowMapEnd then return []
    else
      if !first then expect .flowEntry
      if ← skip? .key then
        let k ← nodeUnless n .flow [.value, .flowEntry, .flowMapEnd]
        let v ← flowValue n .flowMapEnd
        return (k, v) :: (← flowEntries n false)
      else if ← comes [.value] then
        let v ← flowValue n .flowMapEnd
        return (.empty, v) :: (← flowEntries n false)
      else if ← skip? .flowMapEnd then return []
      else
        let k ← node n .flow
        return (k, .empty) :: (← flowEntries n false)

/-- The value after a key of a flow collection with the given end. -/
def flowValue : Nat → Token → Arrange Node
  | 0, _ => misfit
  | n + 1, stop => do
    if ← skip? .value then nodeUnless n .flow [.flowEntry, stop] else return .empty

end

/-! ### Documents -/

/-- The tag handles that every document has. -/
def standardHandles : List (String × String) :=
  [("!", "!"), ("!!", "tag:yaml.org,2002:")]

/-- Reads directives: at most one version, of the first major one, and each handle once. -/
def directives : Nat → Bool → List (String × String) → Arrange (List (String × String))
  | 0, _, _ => misfit
  | n + 1, versioned, handles => do
    match ← peek with
    | some (.directive d) =>
      advance
      match d with
      | .version major _ =>
        if versioned || major != 1 then misfit else directives n true handles
      | .handle name stem =>
        if (handles.lookup name).isSome then misfit
        else directives n versioned ((name, stem) :: handles)
      | .other => directives n versioned handles
    | _ => return handles

/-- **The node of a document**, if the stream holds one; it must not hold two. -/
def document (count : Nat) : Arrange (Option Node) := do
  let explicit ←
    match ← peek with
    | some (.directive _) | some .documentStart => pure true
    | _ => pure false
  let n ←
    match explicit, ← peek with
    | false, none => return none
    | false, _ => node count .block
    | true, _ =>
      let handles ← directives count false []
      modify fun s => { s with handles := handles ++ standardHandles }
      expect .documentStart
      match ← peek with
      | none | some (.directive _) | some .documentStart | some .documentEnd => pure .empty
      | _ => node count .block
  let _ ← skip? .documentEnd
  match ← peek with
  | none => return some n
  | some _ => throw (.malformed .severalDocuments)

end Arrange

/-- **The node of a stream of tokens**, if there is one. No call goes deeper than three for every
token. -/
def documentNode? (tokens : List Token) : Except Fault (Option Node) :=
  (Arrange.document (4 * tokens.length + 8)).run'
    { tokens := tokens, handles := Arrange.standardHandles }

end Scribe.Yaml
