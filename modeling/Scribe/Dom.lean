import Scribe.Text.Case
import Scribe.Value.Check

/-!
# Page snapshots

**A snapshot** lists the elements of a page at one moment, in document order. Each element has a
reference, and names its parent by reference. References ought to be distinct, but a snapshot comes
from a page and may be anything: of several elements with one reference the last counts
(`Scribe.Snapshot.get?`), parents may be missing, and they may form a cycle.
-/

namespace Scribe

/-- **An element** of a snapshot. -/
structure Element where
  /-- The reference of the element. -/
  ref : String
  /-- The name of its tag, in lower case. -/
  tag : String
  /-- Its attributes, sorted by name, each name once. -/
  attributes : List (String × String) := []
  /-- Its role, implicit ones included. -/
  role : Option String := none
  /-- Its accessible name. -/
  name : String := ""
  /-- Its visible text. -/
  text : String := ""
  /-- The text of the label that belongs to it. -/
  label : Option String := none
  /-- The reference of its parent; a root has none. -/
  parent : Option String := none
  /-- Whether a checkbox or radio button is on. -/
  checked : Option Bool := none
  /-- The value of a field. -/
  value : Option String := none
  /-- The names of the files that were chosen. -/
  files : List String := []
  /-- The values that are selected. -/
  selected : List String := []
  deriving Repr, DecidableEq

namespace Element

/-- The value of an attribute. -/
def attribute? (e : Element) (name : String) : Option String :=
  e.attributes.lookup name

/-- The type of an `input`, in lower case, and nothing for other elements. -/
def inputType (e : Element) : String :=
  if e.tag == "input" then Text.lowered ((e.attribute? "type").getD "text") else ""

/-- The types of `input` into which no text is typed. -/
def textlessTypes : List String :=
  ["checkbox", "radio", "file", "button", "submit", "reset", "image", "hidden", "range", "color"]

/-- **Text fields**: what text can be typed into. -/
def isTextField (e : Element) : Bool :=
  if e.tag == "textarea" then true
  else if e.tag == "input" then !textlessTypes.contains e.inputType
  else ["", "true"].contains (Text.lowered ((e.attribute? "contenteditable").getD "false"))

/-- **Toggles**: what a click switches on or off. -/
def isToggle (e : Element) : Bool :=
  ["checkbox", "radio"].contains e.inputType ||
    e.role.any fun r => ["checkbox", "radio", "switch"].contains r

/-- Whether the element chooses files. -/
def isFileInput (e : Element) : Bool :=
  e.inputType == "file"

/-- Whether the element selects among options. -/
def isSelect (e : Element) : Bool :=
  e.tag == "select"

end Element

/-- **A snapshot**: the elements of a page in document order. -/
structure Snapshot where
  /-- The elements. -/
  elements : List Element := []
  deriving Repr, DecidableEq

namespace Snapshot

/-- The element with a reference, the last one if there are several. -/
def get? (s : Snapshot) (ref : String) : Option Element :=
  (s.elements.filter (·.ref == ref)).getLast?

/-- Whether an element has the reference. -/
def contains (s : Snapshot) (ref : String) : Bool :=
  s.elements.any (·.ref == ref)

/-- The children of an element in document order; the roots, where there is no parent. -/
def children (s : Snapshot) (parent : Option String) : List Element :=
  s.elements.filter (·.parent == parent)

/-- How many elements have a property. -/
def count (s : Snapshot) (p : Element → Bool) : Nat :=
  s.elements.countP p

theorem mem_of_get? {s : Snapshot} {ref : String} {e : Element} (h : s.get? ref = some e) :
    e ∈ s.elements := by
  have := List.mem_of_getLast? h
  simp only [List.mem_filter] at this
  exact this.1

/-! ### The way to an element -/

/-- How many elements have none of the references. -/
def unseen (s : Snapshot) (seen : List String) : Nat :=
  s.elements.countP fun e => !seen.contains e.ref

theorem unseen_lt {s : Snapshot} {ref : String} {seen : List String} {e : Element}
    (h : s.get? ref = some e) (hs : seen.contains e.ref = false) :
    s.unseen (e.ref :: seen) < s.unseen seen := by
  have hmem := mem_of_get? h
  unfold unseen
  generalize s.elements = l at hmem
  have step : ∀ (l : List Element), (l.countP fun x => !(e.ref :: seen).contains x.ref) ≤
      l.countP fun x => !seen.contains x.ref := fun l => List.countP_mono_left fun x _ hx => by
    simp only [List.contains_cons, Bool.not_or, Bool.and_eq_true] at hx
    exact hx.2
  induction l with
  | nil => simp at hmem
  | cons a l ih =>
    have hle := step l
    have hone : (if (!(e.ref :: seen).contains a.ref) = true then 1 else 0) ≤
        if (!seen.contains a.ref) = true then 1 else 0 := by
      simpa [List.countP_cons] using step [a]
    rw [List.countP_cons, List.countP_cons]
    rcases List.mem_cons.1 hmem with rfl | hmem
    · simp only [List.contains_cons, beq_self_eq_true, Bool.true_or, Bool.not_true,
        Bool.false_eq_true, if_false, hs, Bool.not_false, if_true] at hle ⊢
      omega
    · have := ih hmem
      omega

/-- **The lineage** of a reference: its element, the parent of that and so on, up to a root, a
missing parent or a reference that was met before. -/
def lineage (s : Snapshot) (seen : List String) (ref : Option String) : List Element :=
  match ref with
  | none => []
  | some r =>
    match h : s.get? r with
    | none => []
    | some e =>
      if hs : seen.contains e.ref then []
      else
        have : s.unseen (e.ref :: seen) < s.unseen seen := unseen_lt h (by simpa using hs)
        e :: s.lineage (e.ref :: seen) e.parent
termination_by s.unseen seen

/-- **One step of the path**: the tag, with the position among the siblings of the same tag where
there are several. -/
def pathStep (s : Snapshot) (e : Element) : String :=
  let siblings := (s.children e.parent).filter (·.tag == e.tag)
  if siblings.length > 1 then s!"{e.tag}:nth-of-type({siblings.idxOf e + 1})" else e.tag

/-- **The structural path** of a reference: the steps from the root down to its element. There is
none for a reference without an element. -/
def structuralPath? (s : Snapshot) (ref : String) : Option String :=
  if s.contains ref then
    some (" > ".intercalate ((s.lineage [] (some ref)).map s.pathStep).reverse)
  else none

end Snapshot

/-! ### Shapes -/

open Check

/-- The entries of a list in the order of their names. -/
def sortByName (entries : List (String × String)) : List (String × String) :=
  entries.mergeSort fun a b => a.1 ≤ b.1

/-- A list of strings that is empty by default. -/
def stringItems (v : Value) (name : String) : Checked (List String) :=
  withDefault v name [] (listOf .listType string)

/-- **The shape of an element.** -/
def Element.shape : Check Element :=
  record fun v =>
    Element.mk <$> required v "ref" string
      <*> required v "tag" string
      <*> withDefault v "attributes" [] (fun a => sortByName <$> stringMap a)
      <*> withDefault v "role" none (nullable string)
      <*> withDefault v "name" "" string
      <*> withDefault v "text" "" string
      <*> withDefault v "label" none (nullable string)
      <*> withDefault v "parent" none (nullable string)
      <*> withDefault v "checked" none (nullable bool)
      <*> withDefault v "value" none (nullable string)
      <*> stringItems v "files"
      <*> stringItems v "selected"

/-- **The shape of a snapshot.** -/
def Snapshot.shape : Check Snapshot :=
  record fun v => Snapshot.mk <$> withDefault v "elements" [] (listOf .listType Element.shape)

end Scribe
