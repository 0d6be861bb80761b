import Scribe.Action

/-!
# Page names

Pages have identifiers while they are recorded and **aliases** in the generated program: the first
page that a committed action refers to is `page`, the later ones are `page1`, `page2` and so on. An
alias is never given twice, also when its page has been closed. Downloads are numbered in the same
way.

* `Scribe.AliasTable` – the aliases as a value, for logs and generated programs;
* `Scribe.PageNames` – the aliases as they are given out;
* `Scribe.PageNames.bind` – puts aliases in the place of identifiers in an action.
-/

namespace Scribe

/-- The alias of the first page. -/
def rootAlias : String := "page"

/-- **The table of aliases.** -/
structure AliasTable where
  /-- The identifiers of the pages with their aliases, in the order in which they were given. -/
  pages : List (String × String) := []
  /-- The alias of the first page, if there is one. -/
  root : Option String := none
  /-- The identifiers of the pages that have been closed. -/
  released : List String := []
  deriving Repr, DecidableEq

namespace AliasTable

/-- Whether there is a first page. -/
def hasRoot (t : AliasTable) : Bool :=
  t.root.isSome

/-- The aliases in the order in which they were given. -/
def aliases (t : AliasTable) : List String :=
  t.pages.map (·.2)

end AliasTable

/-- **The aliases given out so far.** -/
structure PageNames where
  /-- The identifiers of the pages with their aliases, in the order in which they were given. -/
  pages : List (String × String) := []
  /-- The identifiers of the pages that have been closed. -/
  released : List String := []
  /-- How many downloads have been numbered. -/
  downloads : Nat := 0
  deriving Repr, DecidableEq

/-- **What is wrong** with the use of an identifier. -/
inductive PageError where
  | alreadyNamed (id : String) (given : String)
  | unknown (id : String)
  | closed (id : String)
  deriving Repr, DecidableEq

/-- An error in words. -/
def PageError.message : PageError → String
  | alreadyNamed id given => s!"ページ '{id}' には既にエイリアス '{given}' が割り当て済みです"
  | unknown id => s!"未登録のページです: {id}"
  | closed id => s!"close 済みのページです: {id}"

/-- A name that is numbered from its second use on. -/
def numbered (base : String) (n : Nat) : String :=
  if n == 0 then base else base ++ toString n

namespace PageNames

/-- The alias of a page, also when it has been closed. -/
def aliasOf? (names : PageNames) (id : String) : Option String :=
  names.pages.lookup id

/-- Whether a page has been closed. -/
def isReleased (names : PageNames) (id : String) : Bool :=
  names.released.contains id

/-- Whether a page has an alias and has not been closed. -/
def isOpen (names : PageNames) (id : String) : Bool :=
  (names.aliasOf? id).isSome && !names.isReleased id

/-- The names with one more page. -/
def add (names : PageNames) (id : String) : String × PageNames :=
  let given := numbered rootAlias names.pages.length
  (given, { names with pages := names.pages ++ [(id, given)] })

/-- **Gives an alias** to a page that has none. -/
def allocate (names : PageNames) (id : String) : Except PageError (String × PageNames) :=
  match names.aliasOf? id with
  | some given => .error (.alreadyNamed id given)
  | none => .ok (names.add id)

/-- **The alias of an open page.** -/
def resolve (names : PageNames) (id : String) : Except PageError String :=
  match names.aliasOf? id with
  | none => .error (.unknown id)
  | some given => if names.isReleased id then .error (.closed id) else .ok given

/-- **Closes a page**; a page without an alias is passed over. -/
def release (names : PageNames) (id : String) : PageNames :=
  if (names.aliasOf? id).isSome && !names.isReleased id then
    { names with released := names.released ++ [id] }
  else names

/-- The name of the next download. -/
def nextDownload (names : PageNames) : String × PageNames :=
  (numbered "download" names.downloads, { names with downloads := names.downloads + 1 })

/-- The aliases as a value. -/
def table (names : PageNames) : AliasTable where
  pages := names.pages
  root := if names.pages.any (·.2 == rootAlias) then some rootAlias else none
  released := (names.pages.map (·.1)).filter names.isReleased

/-- The alias of a page, given now if it has none. -/
def bindPage (names : PageNames) (id : String) : String × PageNames :=
  match names.aliasOf? id with
  | some given => (given, names)
  | none => names.add id

/-- A signal with aliases: a popup names its page, and a download without a name gets one. -/
def bindSignal (names : PageNames) (s : Signal) : Signal × PageNames :=
  match s.kind, s.popup, s.download with
  | .popup, some id, _ =>
    let (given, names) := names.bindPage id
    ({ s with popup := some given }, names)
  | .download, _, none =>
    let (name, names) := names.nextDownload
    ({ s with download := some name }, names)
  | _, _, _ => (s, names)

/-- Signals with aliases, in order. -/
def bindSignals (names : PageNames) : List Signal → List Signal × PageNames
  | [] => ([], names)
  | s :: rest =>
    let (s, names) := names.bindSignal s
    let (rest, names) := names.bindSignals rest
    (s :: rest, names)

/-- **An action with aliases**: first its own page, then the pages and downloads of its signals. The
page of a `closePage` is closed afterwards. -/
def bind (names : PageNames) (a : Action) : Action × PageNames :=
  let (given, names) := names.bindPage a.page
  let (signals, names) := names.bindSignals a.signals
  let bound := { a with page := given, signals := signals }
  (bound, if a.kind == .closePage then names.release a.page else names)

/-- Actions with aliases, in order. -/
def bindAll (names : PageNames) : List Action → List Action × PageNames
  | [] => ([], names)
  | a :: rest =>
    let (a, names) := names.bind a
    let (rest, names) := names.bindAll rest
    (a :: rest, names)

end PageNames

end Scribe
