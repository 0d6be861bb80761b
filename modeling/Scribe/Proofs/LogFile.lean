import Mathlib
import Scribe.LogFile
import Scribe.Proofs.Document
import Scribe.Proofs.Yaml.Print

/-!
# Log files read back

**A log file gives back the recording that was written to it**: the document is read back from its
value (`Scribe.readDocument_document`), the value from its text as far as YAML does so, and the text
from the bytes of the file. The printed text holds no carriage return, so nothing changes when the
line endings of the file are turned into line feeds.

* `Scribe.Yaml.Library` – what writes and reads the YAML, such as `Scribe.Yaml.Library.standard`;
* `Scribe.LogFile.withLineFeeds_writeWith` – the text that is read is the text that was printed;
* `Scribe.LogFile.read_write` – the way through the file.
-/

namespace Scribe

/-! ### Documents are basic values -/

open Value

theorem isBasic_list_map {α : Type} {value : α → Value} (h : ∀ a, (value a).IsBasic)
    (as : List α) : (Value.list (as.map value)).IsBasic :=
  .list (List.forall_mem_map.mpr fun a _ => h a)

theorem isBasic_stringsValue (items : List String) : (stringsValue items).IsBasic :=
  isBasic_list_map .str items

theorem isBasic_optionalValue (o : Option String) : (optionalValue o).IsBasic := by
  cases o with
  | none => exact .null
  | some s => exact .str s

/-- The fields of a map: a string and a basic value each. -/
def AreFields (es : List (Value × Value)) : Prop :=
  ∀ e ∈ es, e.1.IsBasic ∧ e.2.IsBasic

theorem AreFields.isBasic {es : List (Value × Value)} (h : AreFields es) : (Value.map es).IsBasic :=
  .map (fun e he => (h e he).1) fun e he => (h e he).2

@[simp] theorem areFields_nil : AreFields [] := nofun

@[simp] theorem areFields_fieldOf_cons {name : String} {v : Value} {es : List (Value × Value)} :
    AreFields (fieldOf name v :: es) ↔ v.IsBasic ∧ AreFields es := by
  simp [AreFields, fieldOf, IsBasic.str]

@[simp] theorem areFields_append {es fs : List (Value × Value)} :
    AreFields (es ++ fs) ↔ AreFields es ∧ AreFields fs :=
  List.forall_mem_append

@[simp] theorem areFields_presentField {α : Type} {name : String} {value : α → Value}
    (h : ∀ a, (value a).IsBasic) (o : Option α) : AreFields (presentField name value o) := by
  cases o <;> simp [presentField, h]

@[simp] theorem areFields_changedField {α : Type} [DecidableEq α] {name : String}
    {value : α → Value} (h : ∀ a, (value a).IsBasic) (default a : α) :
    AreFields (changedField name value default a) := by
  unfold changedField
  split <;> simp [h]

theorem Selector.isBasic_toValue (s : Selector) : s.toValue.IsBasic := by
  refine AreFields.isBasic ?_
  cases s <;> simp [IsBasic.str, IsBasic.bool, isBasic_optionalValue]

theorem Signal.isBasic_toValue (s : Signal) : s.toValue.IsBasic :=
  AreFields.isBasic (by simp [IsBasic.str, IsBasic.bool])

theorem Action.isBasic_toValue (a : Action) : a.toValue.IsBasic :=
  AreFields.isBasic (by
    simp [IsBasic.str, IsBasic.int, Selector.isBasic_toValue, isBasic_stringsValue,
      isBasic_list_map Signal.isBasic_toValue])

theorem AliasTable.isBasic_toValue (t : AliasTable) : t.toValue.IsBasic := by
  have hpages : AreFields (t.pages.map fun e => fieldOf e.1 (.str e.2)) :=
    List.forall_mem_map.mpr fun e _ => ⟨.str e.1, .str e.2⟩
  exact AreFields.isBasic (by simp [hpages.isBasic, isBasic_optionalValue, isBasic_stringsValue])

/-- **A document is a basic value.** -/
theorem isBasic_document (actions : List Action) (aliases : AliasTable) :
    (document actions aliases).IsBasic :=
  AreFields.isBasic (by simp [aliases.isBasic_toValue, isBasic_list_map Action.isBasic_toValue])

namespace Yaml

/-- **A library for YAML**: what it prints of basic values holds no carriage return, since what does
not show is written by escapes. -/
structure Library where
  print : Value → List Char
  read : List Char → Except Fault Value
  return_not_mem_print {v : Value} (hv : v.IsBasic) : '\r' ∉ print v

/-- The library that is at hand. -/
def Library.standard : Library where
  print := Yaml.print
  read := Yaml.read
  return_not_mem_print hv h := absurd (shows_print hv '\r' h) (by decide)

/-- A text is read in three stages, each of which can be computed by itself. -/
theorem read_eq_ok {text : List Char} {ts : List Token} {n : Node} {v : Value}
    (htokens : tokens text = .ok ts) (hnode : documentNode? ts = .ok (some n))
    (hcontent : n.content = .ok v) : read text = .ok v := by
  simp only [read, htokens, hnode, bind, Except.bind, hcontent]

end Yaml

namespace LogFile

/-! ### The text of a file -/

theorem withLineFeeds_eq_self {text : List Char} (h : '\r' ∉ text) :
    withLineFeeds text = text := by
  induction text with
  | nil => rfl
  | cons c rest ih =>
    rw [List.mem_cons, not_or] at h
    rw [withLineFeeds, ih h.2]
    · rintro rest' rfl
      exact absurd rfl h.1
    · rintro rfl
      exact absurd rfl h.1

theorem fromUTF8?_toUTF8 (text : String) : String.fromUTF8? text.toUTF8 = some text := by
  rw [String.fromUTF8?, String.toUTF8_eq_toByteArray, dif_pos text.isValidUTF8]
  rfl

/-- **The text that is read is the text that was printed**: the change of line endings leaves it as
it is. -/
theorem withLineFeeds_writeWith (yaml : Yaml.Library) (actions : List Action)
    (aliases : AliasTable) :
    withLineFeeds (writeWith yaml.print actions aliases).toList =
      yaml.print (document actions aliases) := by
  rw [writeWith, String.toList_ofList,
    withLineFeeds_eq_self (yaml.return_not_mem_print (isBasic_document actions aliases))]

/-! ### The way back -/

/-- **A log file gives back the recording that was written to it**, if YAML reads back the document
that it printed: all actions with all their fields, and the table of aliases. This is so whichever
library writes and reads the YAML, and wherever it breaks its lines. -/
theorem read_write (yaml : Yaml.Library) {actions : List Action} {aliases : AliasTable}
    (hlog : IsLogged actions)
    (hyaml : yaml.read (yaml.print (document actions aliases)) = .ok (document actions aliases)) :
    readWith yaml.read (some (writeWith yaml.print actions aliases).toUTF8) =
      .ok (actions, aliases) := by
  have htext : readTextWith yaml.read (writeWith yaml.print actions aliases) =
      .ok (actions, aliases) := by
    simp only [readTextWith, withLineFeeds_writeWith, hyaml, readDocument_document hlog,
      Except.mapError]
  simp only [readWith, fromUTF8?_toUTF8, htext]

/-- An action of an unknown kind comes back with its selector, and with its list of files: an empty
list is not left out, and not read as none. -/
theorem read_write_tap :
    read (some (write
        [{ kind := .other "tap", page := "page", selector := some (.text "Go"),
           files := some [], sequence := 3 }]
        { root := some "page" }).toUTF8) =
      .ok ([{ kind := .other "tap", page := "page", selector := some (.text "Go"),
              files := some [], sequence := 3 }],
        { root := some "page" }) := by
  refine read_write .standard ⟨by decide, by decide, by decide⟩ ?_
  have hplain : ∀ s ∈ ["aliases", "pages", "root", "page", "released", "actions", "kind", "tap",
      "page_alias", "selector", "strategy", "text", "Go", "files", "sequence"],
      Yaml.scalarKind none true s = some .string := by
    decide +kernel
  -- The tokens and the node are found by computing them; the content is read by the equations of
  -- its functions, which call each other.
  apply Yaml.read_eq_ok
  case htokens => conv_lhs => cbv
  case hnode => conv_lhs => cbv
  case hcontent =>
    simp [Yaml.Node.content, Yaml.contents, Yaml.entryContents, Yaml.keyContent,
      Yaml.Node.keyKind, Yaml.scalarValue, hplain]
    cbv

end LogFile

end Scribe
