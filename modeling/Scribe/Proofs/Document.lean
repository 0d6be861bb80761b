import Mathlib.Data.List.Basic
import Scribe.Document
import Scribe.Proofs.ActionLog.Numbers

/-!
# Documents read back

The document of a recording leaves out every field that has its default, and its reader fills the
defaults in again. **Nothing is lost on the way**: a field that is left out is read as the default
that it had, and a field that is there is read as what it holds, also when that is empty or `null`.

* `Scribe.Action.IsValid` – the actions that a reader can return, whatever it reads
  (`Scribe.Action.isValid_iff`);
* `Scribe.Action.shape_toValue` – a valid action is read back from its value;
* `Scribe.readAll_toValue` – actions with growing numbers are read back into a log;
* `Scribe.readDocument_document` – a document gives back its actions and its table of aliases.

A field is looked up by its name in what stands before and after it (`Scribe.Value.field?_append`),
so each field is read by itself: by `required_of_get?` if it is always there, by
`withDefault_of_present` or `withDefault_of_changed` if it may be left out.
-/

namespace Scribe

/-! ### The fields of a map -/

namespace Value

variable {α : Type}

@[simp] theorem field?_nil (name : String) : field? [] name = none := rfl

@[simp] theorem field?_fieldOf_cons (key : String) (v : Value) (es : List (Value × Value))
    (name : String) :
    field? (fieldOf key v :: es) name = if key = name then some v else field? es name := by
  by_cases h : key = name <;> simp [field?, fieldOf, isStr, h]

@[simp] theorem field?_append (es fs : List (Value × Value)) (name : String) :
    field? (es ++ fs) name = (field? es name).or (field? fs name) := by
  cases h : es.find? fun e => e.1.isStr name <;> simp [field?, List.find?_append, h]

@[simp] theorem field?_presentField (key : String) (value : α → Value) (o : Option α)
    (name : String) :
    field? (presentField key value o) name = if key = name then o.map value else none := by
  cases o <;> simp [presentField]

@[simp] theorem field?_changedField [DecidableEq α] (key : String) (value : α → Value)
    (default a : α) (name : String) :
    field? (changedField key value default a) name =
      if key = name then (if a = default then none else some (value a)) else none := by
  by_cases h : a = default <;> simp [changedField, h]

@[simp] theorem get?_map (es : List (Value × Value)) (name : String) :
    (Value.map es).get? name = field? es name := rfl

end Value

/-! ### Checks that succeed -/

namespace Checked

variable {α β : Type}

@[simp] theorem under_ok (s : Step) (a : α) : (ok a).under s = ok a := rfl

theorem map_eq_ok {f : α → β} {x : Checked α} {b : β} :
    f <$> x = ok b ↔ ∃ a, x = ok a ∧ f a = b := by
  cases x with
  | ok a => simp
  | faulty es => exact ⟨nofun, fun ⟨_, h, _⟩ => nomatch h⟩

theorem seq_eq_ok {f : Checked (α → β)} {x : Checked α} {b : β} :
    f <*> x = ok b ↔ ∃ g a, f = ok g ∧ x = ok a ∧ g a = b := by
  cases f with
  | ok g =>
    cases x with
    | ok a => simp
    | faulty es => exact ⟨nofun, fun ⟨_, _, _, h, _⟩ => nomatch h⟩
  | faulty es => cases x <;> exact ⟨nofun, fun ⟨_, _, h, _⟩ => nomatch h⟩

end Checked

namespace Check

variable {α : Type} {check : Check α} {v w : Value} {name : String}

theorem record_eq_ok {fields : Check α} {a : α} :
    record fields v = .ok a ↔ (∃ es, v = .map es) ∧ fields v = .ok a := by
  cases v with
  | map es => simp [record]
  | _ => exact ⟨nofun, fun ⟨⟨_, h⟩, _⟩ => nomatch h⟩

theorem required_eq_ok {a : α} :
    required v name check = .ok a ↔ ∃ w, v.get? name = some w ∧ check w = .ok a := by
  cases hv : v.get? name with
  | none => simp [required, hv, Checked.fault, Checked.under]
  | some w => cases hw : check w <;> simp [required, hv, hw, Checked.under]

theorem required_of_get? {a : α} (hv : v.get? name = some w) (hw : check w = .ok a) :
    required v name check = .ok a :=
  required_eq_ok.mpr ⟨w, hv, hw⟩

theorem withDefault_of_get? {a : α} (default : α) (hv : v.get? name = some w)
    (hw : check w = .ok a) : withDefault v name default check = .ok a := by
  simp [withDefault, hv, hw]

/-- A field that is left out if it has its default is read as what it was. -/
theorem withDefault_of_changed [DecidableEq α] (value : α → Value) {default a : α}
    (hv : v.get? name = if a = default then none else some (value a))
    (hw : check (value a) = .ok a) : withDefault v name default check = .ok a := by
  by_cases h : a = default
  · simp [withDefault, hv, h]
  · exact withDefault_of_get? default (by simpa [h] using hv) hw

theorem nullable_of_ok {a : α} (hv : v ≠ .null) (ha : check v = .ok a) :
    nullable check v = .ok (some a) := by
  cases v with
  | null => exact absurd rfl hv
  | _ => simp [nullable, ha]

/-- A field that is left out if there is no value is read as what it was. It is never there with
`null`, which would be read as no value as well. -/
theorem withDefault_of_present (value : α → Value) {o : Option α}
    (hv : v.get? name = o.map value) (hw : ∀ a, check (value a) = .ok a)
    (hnull : ∀ a, value a ≠ .null) :
    withDefault v name none (nullable check) = .ok o := by
  cases o with
  | none => simp [withDefault, hv]
  | some a => exact withDefault_of_get? none hv (nullable_of_ok (hnull a) (hw a))

theorem itemsFrom_map {value : α → Value} {as : List α} (h : ∀ a ∈ as, check (value a) = .ok a)
    (i : Nat) :
    itemsFrom check i (as.map value) = .ok as := by
  induction as generalizing i with
  | nil => rfl
  | cons a as ih =>
    have ha : check (value a) = .ok a := h a List.mem_cons_self
    have has := ih (fun b hb => h b (List.mem_cons_of_mem a hb)) (i + 1)
    simp [itemsFrom, ha, has]

theorem listOf_map {value : α → Value} (k : FaultKind) (as : List α)
    (h : ∀ a ∈ as, check (value a) = .ok a) :
    listOf k check (.list (as.map value)) = .ok as :=
  itemsFrom_map h 0

theorem listOf_stringsValue (k : FaultKind) (ss : List String) :
    listOf k string (stringsValue ss) = .ok ss :=
  listOf_map k ss fun _ _ => rfl

theorem nullable_optionalValue (o : Option String) :
    nullable string (optionalValue o) = .ok o := by
  cases o <;> rfl

theorem stringMap_fields (es : List (String × String)) :
    stringMap (.map (es.map fun e => fieldOf e.1 (.str e.2))) = .ok es := by
  simp only [stringMap]
  induction es with
  | nil => rfl
  | cons e es ih =>
    have he : stringEntry (fieldOf e.1 (.str e.2)) = .ok e := rfl
    simp only [List.map_cons, Checked.all, he, ih, Checked.map_ok, Checked.ok_seq_ok]

end Check

/-! ### Selectors and signals -/

open Check

/-- **A selector is read back**, all of its fields being there. -/
theorem Selector.shape_toValue (s : Selector) : Selector.shape s.toValue = .ok s := by
  cases s with
  | role kind name exact =>
    simp [shape, toValue, tagged, strategy, member, required, optionalString, withDefault,
      nullable_optionalValue, string, Check.bool]
  | _ =>
    simp [shape, toValue, tagged, strategy, member, required, withDefault, string,
      Check.bool]

theorem Selector.toValue_ne_null (s : Selector) : s.toValue ≠ .null :=
  Value.noConfusion

theorem SignalKind.shape_name (k : SignalKind) : SignalKind.shape (.str k.name) = .ok k := by
  cases k <;> rfl

/-- A signal is read from a map all of whose fields are read, and holds what they hold. -/
theorem Signal.shape_eq_ok {v : Value} {s : Signal} :
    Signal.shape v = .ok s ↔ (∃ es, v = .map es) ∧
      required v "kind" SignalKind.shape = .ok s.kind ∧
      optionalString v "popup_alias" = .ok s.popup ∧
      optionalString v "download_alias" = .ok s.download ∧
      withDefault v "dismiss" true Check.bool = .ok s.dismiss ∧
      optionalString v "url" = .ok s.url := by
  cases s
  simp only [shape, record_eq_ok, Checked.seq_eq_ok, Checked.map_eq_ok]
  constructor
  · rintro ⟨hv, _, _, ⟨_, _, ⟨_, _, ⟨_, _, ⟨_, hkind, rfl⟩, hpopup, rfl⟩, hdownload, rfl⟩,
      hdismiss, rfl⟩, hurl, h⟩
    cases h
    exact ⟨hv, hkind, hpopup, hdownload, hdismiss, hurl⟩
  · grind

/-- **A signal is read back.** -/
theorem Signal.shape_toValue (s : Signal) : Signal.shape s.toValue = .ok s := by
  refine Signal.shape_eq_ok.mpr ⟨⟨_, rfl⟩, ?kind, ?popup, ?download, ?dismiss, ?url⟩
  case kind => exact required_of_get? (by simp [Signal.toValue]) s.kind.shape_name
  case dismiss =>
    exact withDefault_of_changed .bool (by simp [Signal.toValue]) rfl
  all_goals
    exact withDefault_of_present .str (by simp [Signal.toValue]) (fun _ => rfl) nofun

/-! ### Actions -/

/-- **A valid action**: its kind is that of its name, so no known kind is kept by name. Whatever
else an action holds is valid. -/
def Action.IsValid (a : Action) : Prop :=
  Kind.ofName a.kind.name = a.kind

instance (a : Action) : Decidable a.IsValid :=
  inferInstanceAs (Decidable (_ = _))

/-- An action is read from a map all of whose fields are read, and holds what they hold. -/
theorem Action.shape_eq_ok {v : Value} {a : Action} :
    Action.shape v = .ok a ↔ (∃ es, v = .map es) ∧
      required v "kind" Kind.shape = .ok a.kind ∧
      required v "page_alias" string = .ok a.page ∧
      withDefault v "selector" none (nullable Selector.shape) = .ok a.selector ∧
      stringTuple v "frame_path" = .ok a.framePath ∧
      optionalString v "url" = .ok a.url ∧
      optionalString v "text" = .ok a.text ∧
      optionalTuple v "files" = .ok a.files ∧
      optionalTuple v "options" = .ok a.options ∧
      optionalString v "key" = .ok a.key ∧
      withDefault v "button" "left" string = .ok a.button ∧
      withDefault v "click_count" 1 int = .ok a.clickCount ∧
      stringTuple v "modifiers" = .ok a.modifiers ∧
      withDefault v "signals" [] (listOf .tupleType Signal.shape) = .ok a.signals ∧
      withDefault v "incomplete_signals" [] (listOf .tupleType SignalKind.shape) =
        .ok a.incompleteSignals ∧
      withDefault v "sequence" (-1) int = .ok a.sequence := by
  cases a
  simp only [shape, record_eq_ok, Checked.seq_eq_ok, Checked.map_eq_ok]
  constructor
  · simp +contextual
  · grind

/-- **A valid action is read back.** -/
theorem Action.shape_toValue {a : Action} (ha : a.IsValid) : Action.shape a.toValue = .ok a := by
  refine Action.shape_eq_ok.mpr ⟨⟨_, rfl⟩, ?kind, ?page, ?selector, ?framePath, ?url, ?text,
    ?files, ?options, ?key, ?button, ?clickCount, ?modifiers, ?signals, ?incompleteSignals,
    ?sequence⟩
  case kind =>
    exact required_of_get? (w := .str a.kind.name) (by simp [Action.toValue])
      (congrArg Checked.ok ha)
  case page => exact required_of_get? (w := .str a.page) (by simp [Action.toValue]) rfl
  -- what may be missing is written if it is there, be it empty, and never as `null`
  case selector =>
    exact withDefault_of_present Selector.toValue (by simp [Action.toValue])
      Selector.shape_toValue Selector.toValue_ne_null
  case url | text | key =>
    exact withDefault_of_present .str (by simp [Action.toValue]) (fun _ => rfl) nofun
  case files | options =>
    exact withDefault_of_present stringsValue (by simp [Action.toValue]) (listOf_stringsValue _)
      nofun
  -- what has a default is written if it differs from it
  case framePath | modifiers =>
    exact withDefault_of_changed stringsValue (by simp [Action.toValue])
      (listOf_stringsValue _ _)
  case button => exact withDefault_of_changed .str (by simp [Action.toValue]) rfl
  case clickCount | sequence =>
    exact withDefault_of_changed .int (by simp [Action.toValue]) rfl
  case signals =>
    exact withDefault_of_changed (fun ss => .list (ss.map Signal.toValue))
      (by simp [Action.toValue]) (listOf_map _ _ fun s _ => s.shape_toValue)
  case incompleteSignals =>
    refine withDefault_of_changed (fun ks => stringsValue (ks.map SignalKind.name))
      (by simp [Action.toValue]) ?_
    simpa [stringsValue, Function.comp_def] using
      listOf_map .tupleType a.incompleteSignals fun k _ => k.shape_name

/-! ### Validity -/

theorem Kind.name_ofName (s : String) : (Kind.ofName s).name = s := by
  cases h : Kind.known.find? fun k => k.name == s with
  | none => rw [Kind.ofName, h, Option.getD_none, Kind.name]
  | some k => simpa [Kind.ofName, h] using List.find?_some h

/-- **Valid actions are those that can be read** from some value. -/
theorem Action.isValid_iff {a : Action} : a.IsValid ↔ ∃ v, Action.shape v = .ok a := by
  constructor
  · exact fun ha => ⟨a.toValue, Action.shape_toValue ha⟩
  · rintro ⟨v, hv⟩
    obtain ⟨w, -, hw⟩ := required_eq_ok.mp (Action.shape_eq_ok.mp hv).2.1
    cases w with
    | str s =>
      have hkind : Kind.ofName s = a.kind := by simpa [Kind.shape] using hw
      rw [IsValid, ← hkind, Kind.name_ofName]
    | _ => exact nomatch hw

/-! ### The table of aliases -/

/-- A value that counts as given is found; any other is read as missing. -/
theorem givenField?_of_field? {es : List (Value × Value)} {name : String} {v : Value}
    (hv : Value.field? es name = some v) :
    givenField? es name = if v.isGiven then some v else none := by
  cases h : v.isGiven <;> simp [givenField?, hv, Option.filter, h]

theorem givenField?_map {es : List (Value × Value)} {name : String}
    {entries : List (Value × Value)} (hv : Value.field? es name = some (.map entries)) :
    (givenField? es name).getD (.map []) = .map entries := by
  cases entries <;> simp [givenField?_of_field? hv, Value.isGiven]

theorem givenField?_list {es : List (Value × Value)} {name : String} {items : List Value}
    (hv : Value.field? es name = some (.list items)) :
    (givenField? es name).getD (.list []) = .list items := by
  cases items <;> simp [givenField?_of_field? hv, Value.isGiven]

theorem AliasTable.shape_toValue (t : AliasTable) : AliasTable.shape t.toValue = .ok t := by
  have hpages : withDefault t.toValue "pages" [] stringMap = .ok t.pages :=
    withDefault_of_get? [] (by simp [AliasTable.toValue]) (stringMap_fields t.pages)
  have hroot : withDefault t.toValue "root" none (nullable string) = .ok t.root :=
    withDefault_of_get? none (by simp [AliasTable.toValue]) (nullable_optionalValue t.root)
  have hreleased : withDefault t.toValue "released" [] (listOf .tupleType string) =
      .ok t.released :=
    withDefault_of_get? [] (by simp [AliasTable.toValue]) (listOf_stringsValue _ t.released)
  calc AliasTable.shape t.toValue
      = AliasTable.mk <$> withDefault t.toValue "pages" [] stringMap
          <*> withDefault t.toValue "root" none (nullable string)
          <*> withDefault t.toValue "released" [] (listOf .tupleType string) := rfl
    _ = .ok t := by rw [hpages, hroot, hreleased]; rfl

/-- **A table of aliases is read back**, also where it is empty or has no first page. -/
theorem readAliases_toValue (t : AliasTable) : readAliases t.toValue.entries = .ok t := by
  have hpages : (givenField? t.toValue.entries "pages").getD (.map []) =
      .map (t.pages.map fun e => fieldOf e.1 (.str e.2)) :=
    givenField?_map (by simp [AliasTable.toValue, Value.entries])
  have hroot : (Value.field? t.toValue.entries "root").getD .null = optionalValue t.root := by
    simp [AliasTable.toValue, Value.entries]
  have hreleased : (givenField? t.toValue.entries "released").getD (.list []) =
      stringsValue t.released :=
    givenField?_list (by simp [AliasTable.toValue, Value.entries, stringsValue])
  calc readAliases t.toValue.entries
      = shaped (AliasTable.shape t.toValue) := by
        simp only [readAliases, hpages, hroot, hreleased]
        rfl
    _ = .ok t := by rw [AliasTable.shape_toValue, shaped]

/-! ### The actions of a log -/

theorem bind_eq_ok {α β ε : Type} {x : Except ε α} {f : α → Except ε β} {b : β} :
    x >>= f = .ok b ↔ ∃ a, x = .ok a ∧ f a = .ok b := by
  cases x with
  | error e => exact ⟨nofun, fun ⟨_, h, _⟩ => nomatch h⟩
  | ok a => exact ⟨fun h => ⟨a, rfl, h⟩, fun ⟨_, h, hb⟩ => by cases h; exact hb⟩

/-- **Actions as a log holds them**: valid, and numbered from zero on with growing numbers. -/
structure IsLogged (actions : List Action) : Prop where
  /-- No known kind is kept by name. -/
  valid : ∀ a ∈ actions, a.IsValid
  /-- Every action has a number. -/
  committed : ∀ a ∈ actions, 0 ≤ a.sequence
  /-- The numbers grow. -/
  growing : actions.Pairwise (·.sequence < ·.sequence)

theorem isLogged_iff {actions : List Action} :
    IsLogged actions ↔ (∀ a ∈ actions, a.IsValid) ∧ IsAscending actions :=
  ⟨fun ⟨hvalid, hcommitted, hgrowing⟩ => ⟨hvalid, hcommitted, hgrowing⟩,
    fun ⟨hvalid, hcommitted, hgrowing⟩ => ⟨hvalid, hcommitted, hgrowing⟩⟩

theorem IsLogged.isAscending {actions : List Action} (h : IsLogged actions) :
    IsAscending actions :=
  (isLogged_iff.mp h).2

theorem IsLogged.of_append {before : List Action} (after : List Action)
    (h : IsLogged (before ++ after)) : IsLogged before where
  valid a ha := h.valid a (List.mem_append_left after ha)
  committed a ha := h.committed a (List.mem_append_left after ha)
  growing := (List.pairwise_append.mp h.growing).1

theorem isLogged_append_singleton {actions : List Action} {a : Action} :
    IsLogged (actions ++ [a]) ↔ IsLogged actions ∧ a.IsValid ∧ 0 ≤ a.sequence ∧
      ∀ b ∈ actions, b.sequence < a.sequence := by
  simp only [isLogged_iff, isAscending_append_singleton, List.mem_append, List.mem_singleton,
    or_imp, forall_and, forall_eq]
  tauto

/-- **A log stays a log** when a valid action is appended, whatever its number: one without a
number gets the next one. -/
theorem isLogged_append {log log' : ActionLog} {a b : Action} (hlog : IsLogged log.actions)
    (ha : a.IsValid) (happend : log.append a = .ok (b, log')) : IsLogged log'.actions := by
  refine isLogged_iff.mpr ⟨?_, ActionLog.isAscending_append hlog.isAscending happend⟩
  rw [ActionLog.append_eq] at happend
  split at happend
  · cases happend
  split at happend
  · cases happend
  · cases happend
    intro c hc
    rcases List.mem_append.mp hc with hc | hc
    · exact hlog.valid c hc
    · rw [List.mem_singleton.mp hc]
      exact ha

/-- An action whose number is greater than all before it is read back into the log. -/
theorem readAction_toValue {log : ActionLog} {a : Action} (hfrozen : log.frozen = false)
    (hlog : IsLogged (log.actions ++ [a])) :
    readAction log a.toValue = .ok { log with actions := log.actions ++ [a] } := by
  obtain ⟨hbefore, hvalid, ha, hlt⟩ := isLogged_append_singleton.mp hlog
  simp [readAction, shaped, Action.shape_toValue hvalid,
    ActionLog.append_of_lt hbefore.isAscending hfrozen ha hlt]

/-- **Actions with growing numbers are read back into a log**, after those that it holds. -/
theorem readAll_toValue (actions : List Action) {log : ActionLog} (hfrozen : log.frozen = false)
    (hlog : IsLogged (log.actions ++ actions)) :
    (actions.map Action.toValue).foldlM readAction log =
      .ok { log with actions := log.actions ++ actions } := by
  -- The log grows by the action just read, so the induction is for every log.
  induction actions generalizing log with
  | nil => simp; rfl
  | cons a rest ih =>
    rw [← List.singleton_append, ← List.append_assoc] at hlog
    have hread := readAction_toValue hfrozen (hlog.of_append _)
    have hrest := @ih { log with actions := log.actions ++ [a] } hfrozen hlog
    simp only [List.append_assoc, List.singleton_append] at hrest
    rw [List.map_cons, List.foldlM_cons, hread]
    exact hrest

theorem isLogged_readAction {log log' : ActionLog} {item : Value} (hlog : IsLogged log.actions)
    (hread : readAction log item = .ok log') : IsLogged log'.actions := by
  cases hshape : Action.shape item with
  | faulty faults => simp [readAction, shaped, hshape] at hread
  | ok a =>
    cases happend : log.append a with
    | error v => simp [readAction, shaped, hshape, happend] at hread
    | ok r =>
      obtain rfl : r.2 = log' := by simpa [readAction, shaped, hshape, happend] using hread
      exact isLogged_append hlog (Action.isValid_iff.mpr ⟨item, hshape⟩) happend

/-- **Whatever is read makes a log.** -/
theorem isLogged_readAll {items : List Value} {log log' : ActionLog}
    (hlog : IsLogged log.actions) (hread : items.foldlM readAction log = .ok log') :
    IsLogged log'.actions := by
  induction items generalizing log with
  | nil => cases hread; exact hlog
  | cons item rest ih =>
    rw [List.foldlM_cons, bind_eq_ok] at hread
    obtain ⟨next, hitem, hrest⟩ := hread
    exact ih (isLogged_readAction hlog hitem) hrest

/-! ### Documents -/

theorem aliasEntries_document (actions : List Action) (aliases : AliasTable) :
    aliasEntries (document actions aliases).entries = .ok aliases.toValue.entries := by
  have hfield : Value.field? (document actions aliases).entries "aliases" =
      some aliases.toValue := by
    simp [document, Value.entries]
  rw [aliasEntries, givenField?_of_field? hfield]
  rfl

/-- The actions of a document are found also if there are none: an empty list does not count as
given, and is read as no list. -/
theorem actionItems_document (actions : List Action) (aliases : AliasTable) :
    actionItems (document actions aliases).entries = .ok (actions.map Action.toValue) := by
  have hfield : Value.field? (document actions aliases).entries "actions" =
      some (.list (actions.map Action.toValue)) := by
    simp [document, Value.entries]
  rw [actionItems, givenField?_of_field? hfield]
  cases actions <;> simp [Value.isGiven]

/-- **A document gives back what it was made of**: the actions as a log holds them, and the table of
aliases. -/
theorem readDocument_document {actions : List Action} (hlog : IsLogged actions)
    (aliases : AliasTable) :
    readDocument (document actions aliases) = .ok (actions, aliases) := by
  have hread : (actions.map Action.toValue).foldlM readAction {} = .ok { actions } :=
    readAll_toValue actions rfl hlog
  calc readDocument (document actions aliases)
      = (do
          let entries ← aliasEntries (document actions aliases).entries
          let items ← actionItems (document actions aliases).entries
          let table ← readAliases entries
          let log ← items.foldlM readAction {}
          pure (log.actions, table)) := rfl
    _ = (do
          let table ← readAliases aliases.toValue.entries
          let log ← (actions.map Action.toValue).foldlM readAction {}
          pure (log.actions, table)) := by
        rw [aliasEntries_document, actionItems_document]
        rfl
    _ = .ok (actions, aliases) := by
        rw [readAliases_toValue, hread]
        rfl

/-- **Every document that is read makes a log**, whoever wrote it. -/
theorem isLogged_readDocument {v : Value} {actions : List Action} {aliases : AliasTable}
    (hread : readDocument v = .ok (actions, aliases)) : IsLogged actions := by
  cases v with
  | map entries =>
    simp only [readDocument, bind_eq_ok] at hread
    obtain ⟨_, -, _, -, _, -, log, hlog, hresult⟩ := hread
    cases hresult
    have hempty : IsLogged ({} : ActionLog).actions := ⟨by simp, by simp, List.Pairwise.nil⟩
    exact isLogged_readAll hempty hlog
  | _ => cases hread

/-- **What documents keep**: a recording can be read back from its document exactly if its actions
are as a log holds them. -/
theorem readDocument_document_iff {actions : List Action} {aliases : AliasTable} :
    readDocument (document actions aliases) = .ok (actions, aliases) ↔ IsLogged actions :=
  ⟨isLogged_readDocument, fun hlog => readDocument_document hlog aliases⟩

end Scribe
