import Mathlib.Data.Nat.Notation
import Scribe.Yaml.Content

/-!
# What cannot be read in a YAML text

A text that is malformed is reported as such. **What is at fault otherwise is a node**: a scalar
that its type cannot hold, or a key with a list or a map inside (`Scribe.Yaml.Node.HasUnreadable`).

Whether a computation is at fault with nothing but malformations and certain other things
(`Scribe.Yaml.Blames`) follows from its parts, for it is kept by every bind. The functions that make
tokens of a text and nodes of tokens are gone through one by one: all that they find is malformed
text (`Scribe.Yaml.blames_tokens`, `Scribe.Yaml.blames_documentNode?`). The content of a node is at
fault with what is at fault in the node, case by case (`Scribe.Yaml.blames_content`). So what cannot
be read in a text is found in the content of its node (`Scribe.Yaml.read_eq_unreadable_iff`).
-/

namespace Scribe.Yaml

variable {α β : Type} {p : Unreadable → Prop}

/-! ### Faults of a computation -/

/-- **A computation that fails with malformed text**, or with what a predicate admits. -/
def Blames (p : Unreadable → Prop) (x : Except Fault α) : Prop :=
  ∀ u, x = .error (.unreadable u) → p u

namespace Blames

@[simp] theorem ok (a : α) : Blames p (.ok a) :=
  fun _ h => by cases h

@[simp] theorem malformed (m : Malformation) : Blames p (.error (.malformed m) : Except Fault α) :=
  fun _ h => by cases h

theorem bind {x : Except Fault α} {f : α → Except Fault β} (hx : Blames p x)
    (hf : ∀ a, x = .ok a → Blames p (f a)) : Blames p (x >>= f) := by
  intro u h
  cases x with
  | error e => exact hx u (by simpa [Bind.bind, Except.bind] using h)
  | ok a => exact hf a rfl u h

theorem map {x : Except Fault α} (f : α → β) (hx : Blames p x) : Blames p (x.map f) := by
  intro u h
  cases x with
  | error e => exact hx u (by simpa [Except.map] using h)
  | ok a => cases h

theorem ite {c : Prop} [Decidable c] {x y : Except Fault α} (hx : Blames p x) (hy : Blames p y) :
    Blames p (if c then x else y) := by
  split
  · exact hx
  · exact hy

/-- A fault that is passed on. -/
theorem error {x : Except Fault α} {e : Fault} (hx : Blames p x) (h : x = .error e) :
    Blames p (.error e : Except Fault β) := by
  rintro u ⟨⟩
  exact hx u h

theorem mono {q : Unreadable → Prop} {x : Except Fault α} (hx : Blames p x) (h : ∀ u, p u → q u) :
    Blames q x :=
  fun u hu => h u (hx u hu)

/-- What is at fault in the rest of a list is at fault in the list. -/
theorem of_rest {γ : Type} {q : γ → Unreadable → Prop} {b : γ} {rest : List γ}
    {x : Except Fault α} (hx : Blames (fun u => ∃ a ∈ rest, q a u) x) :
    Blames (fun u => ∃ a ∈ b :: rest, q a u) x :=
  hx.mono fun _ h => h.imp fun _ ha => ha.imp_left (List.mem_cons_of_mem _)

end Blames

/-! ### Names and scalars -/

variable {c : Cursor} {l : Lexer}

namespace Lexer

end Lexer

namespace Arrange

variable {m : Arrange α}

/-- **A step of the arrangement** that fails with malformed text, or with what a predicate
admits. -/
def Blames (p : Unreadable → Prop) (m : Arrange α) : Prop :=
  ∀ s, Yaml.Blames p (m s)

namespace Blames

theorem pure (a : α) : Blames p (Pure.pure a : Arrange α) :=
  fun _ => .ok _

theorem bind {f : α → Arrange β} (hm : Blames p m) (hf : ∀ a, Blames p (f a)) :
    Blames p (m >>= f) :=
  fun s => (hm s).bind fun r _ => hf r.1 r.2

theorem ite {c : Prop} [Decidable c] {m' : Arrange α} (hm : Blames p m) (hm' : Blames p m') :
    Blames p (if c then m else m') := by
  split
  · exact hm
  · exact hm'

theorem throw (f : Malformation) : Blames p (throw (.malformed f) : Arrange α) :=
  fun _ => .malformed _

theorem get : Blames p (get : Arrange Arrangement) :=
  fun _ => .ok _

theorem modify (f : Arrangement → Arrangement) : Blames p (modify f : Arrange Unit) :=
  fun _ => .ok _

end Blames

end Arrange

theorem blames_toMap (e : Entries) : Blames p e.toMap :=
  .ite (.malformed _) (.ok _)

theorem blames_pairsOf (items : List Value) : Blames p (pairsOf items) := by
  unfold pairsOf
  induction items with
  | nil => exact .ok _
  | cons v rest ih =>
    rw [List.mapM_cons]
    refine .bind ?_ fun _ _ => ih.bind fun _ _ => .ok _
    split
    · exact .ok _
    · exact .malformed _

/-- The items of a list are readable by then. -/
theorem blames_listValue (items : List Value) (kind : Option Kind) :
    Blames p (listValue items kind) := by
  unfold listValue
  split
  · exact .ok _
  · exact (blames_pairsOf _).bind fun _ _ => blames_toMap _
  · exact (blames_pairsOf _).bind fun _ _ => .ok _
  all_goals exact .malformed _

theorem blames_mapValue (entries : Entries) (kind : Option Kind) :
    Blames p (mapValue entries kind) := by
  unfold mapValue
  split
  · exact blames_toMap _
  · exact (blames_toMap _).bind fun _ _ => .ok _
  all_goals exact .malformed _

/-- **A list or a map.** -/
def IsCollection : Value → Prop
  | .list _ | .map _ => True
  | _ => False

/-- **A key that cannot be one**: a list with a list or a map inside. -/
def IsNestedKey (k : Node) : Prop :=
  ∃ items, keyContent k = .ok (.list items) ∧ ∃ v ∈ items, IsCollection v

/-- **Something in a node that cannot be read**: a scalar that its type cannot hold, or a key that
cannot be one. -/
inductive Node.HasUnreadable (u : Unreadable) : Node → Prop where
  | scalar {tag : Option String} {plain : Bool} {text : String}
    (h : scalarValue text (scalarKind tag plain text) = .error (.unreadable u)) :
    HasUnreadable u (.scalar tag plain text)
  | item {tag : Option String} {items : List Node} {n : Node} (hn : n ∈ items)
    (h : HasUnreadable u n) : HasUnreadable u (.list tag items)
  | key {tag : Option String} {entries : List (Node × Node)} {e : Node × Node} (he : e ∈ entries)
    (h : HasUnreadable u e.1) : HasUnreadable u (.map tag entries)
  | value {tag : Option String} {entries : List (Node × Node)} {e : Node × Node} (he : e ∈ entries)
    (h : HasUnreadable u e.2) : HasUnreadable u (.map tag entries)
  | nestedKey {tag : Option String} {entries : List (Node × Node)} {e : Node × Node}
    (he : e ∈ entries) (h : IsNestedKey e.1) (hu : u = .key) : HasUnreadable u (.map tag entries)

/-- Something in an entry that cannot be read. -/
def EntryHasUnreadable (u : Unreadable) (e : Node × Node) : Prop :=
  e.1.HasUnreadable u ∨ e.2.HasUnreadable u ∨ IsNestedKey e.1 ∧ u = .key

theorem Node.hasUnreadable_of_item {u : Unreadable} {tag : Option String} {items : List Node}
    (h : ∃ n ∈ items, n.HasUnreadable u) : HasUnreadable u (.list tag items) := by
  obtain ⟨n, hn, h⟩ := h
  exact .item hn h

theorem Node.hasUnreadable_of_entry {u : Unreadable} {tag : Option String}
    {entries : List (Node × Node)} (h : ∃ e ∈ entries, EntryHasUnreadable u e) :
    HasUnreadable u (.map tag entries) := by
  obtain ⟨e, he, h | h | ⟨h, hu⟩⟩ := h
  · exact .key he h
  · exact .value he h
  · exact .nestedKey he h hu

theorem blames_checkKey {k : Node} {v : Value} (hv : keyContent k = .ok v) :
    Blames (fun u => IsNestedKey k ∧ u = .key) (checkKey v) := by
  cases v with
  | map entries => exact .malformed _
  | list items =>
    unfold checkKey
    dsimp only
    split
    · next hany =>
      rintro u ⟨⟩
      obtain ⟨w, hw, hcollection⟩ := List.any_eq_true.mp hany
      refine ⟨⟨items, hv, w, hw, ?_⟩, rfl⟩
      split at hcollection
      · trivial
      · trivial
      · cases hcollection
    · exact .ok _
  | _ => exact .ok _

/-- A list is at fault with what is at fault in its items. -/
theorem blames_content_list {tag : Option String} {items : List Node}
    (h : Blames (fun u => ∃ n ∈ items, n.HasUnreadable u) (contents items)) :
    Blames ((Node.list tag items).HasUnreadable ·) (Node.list tag items).content := by
  rw [Node.content]
  refine .bind ?_ fun _ _ => blames_listValue _ _
  exact h.mono fun u h => Node.hasUnreadable_of_item h

/-- A map is at fault with what is at fault in its entries. -/
theorem blames_content_map {tag : Option String} {entries : List (Node × Node)}
    (h : Blames (fun u => ∃ e ∈ entries, EntryHasUnreadable u e) (entryContents {} entries)) :
    Blames ((Node.map tag entries).HasUnreadable ·) (Node.map tag entries).content := by
  rw [Node.content]
  refine .bind ?_ fun _ _ => blames_mapValue _ _
  exact h.mono fun u h => Node.hasUnreadable_of_entry h

mutual

/-- **The content of a node** is at fault with what is at fault in it. -/
theorem blames_content (n : Node) : Blames (n.HasUnreadable ·) n.content := by
  cases n with
  | scalar tag plain text =>
    rw [Node.content]
    exact fun u h => .scalar h
  | list tag items => exact blames_content_list (blames_contents items)
  | map tag entries => exact blames_content_map (blames_entryContents {} entries)
  | loop isList =>
    rw [Node.content]
    exact .ok _

theorem blames_contents (ns : List Node) :
    Blames (fun u => ∃ n ∈ ns, n.HasUnreadable u) (contents ns) := by
  cases ns with
  | nil =>
    rw [contents]
    exact .ok _
  | cons n rest =>
    rw [contents]
    refine .bind ?_ fun _ _ => .bind ?_ fun _ _ => .ok _
    · exact (blames_content n).mono fun u h => ⟨n, List.mem_cons_self, h⟩
    · exact (blames_contents rest).of_rest

theorem blames_entryContents (found : Entries) (es : List (Node × Node)) :
    Blames (fun u => ∃ e ∈ es, EntryHasUnreadable u e) (entryContents found es) := by
  cases es with
  | nil =>
    rw [entryContents]
    exact .ok _
  | cons e rest =>
    obtain ⟨k, v⟩ := e
    have hhere {u : Unreadable} (h : EntryHasUnreadable u (k, v)) :
        ∃ e ∈ (k, v) :: rest, EntryHasUnreadable u e :=
      ⟨(k, v), List.mem_cons_self, h⟩
    have hrest (found : Entries) :
        Blames (fun u => ∃ e ∈ (k, v) :: rest, EntryHasUnreadable u e) (entryContents found rest) :=
      (blames_entryContents found rest).of_rest
    rw [entryContents]
    refine .ite (.ite (.malformed _) (.bind ?_ fun _ _ => hrest _)) ?_
    · exact (blames_mergedContent v).mono fun u h => hhere (.inr (.inl h))
    · refine .bind ?_ fun key hkey => .bind ?_ fun _ _ => .bind ?_ fun _ _ => hrest _
      · exact (blames_keyContent k).mono fun u h => hhere (.inl h)
      · exact (blames_checkKey hkey).mono fun u h => hhere (.inr (.inr h))
      · exact (blames_content v).mono fun u h => hhere (.inr (.inl h))

theorem blames_keyContent (k : Node) : Blames (k.HasUnreadable ·) (keyContent k) := by
  cases k with
  | scalar tag plain text =>
    rw [keyContent]
    exact .ite (.ok _) fun u h => .scalar h
  | list tag items =>
    rw [keyContent]
    · exact blames_content_list (blames_contents items)
    · simp
  | map tag entries =>
    rw [keyContent]
    · exact blames_content_map (blames_entryContents {} entries)
    · simp
  | loop isList =>
    rw [keyContent, Node.content]
    · exact .ok _
    · simp

theorem blames_mergedContent (n : Node) : Blames (n.HasUnreadable ·) (mergedContent n) := by
  cases n with
  | map tag entries =>
    rw [mergedContent]
    refine .bind ?_ fun _ _ => .ok _
    exact (blames_entryContents {} entries).mono fun u h => Node.hasUnreadable_of_entry h
  | list tag items =>
    rw [mergedContent]
    exact (blames_mergedContents items).mono fun u h => Node.hasUnreadable_of_item h
  | scalar tag plain text =>
    rw [mergedContent]
    · exact .malformed _
    · simp
    · simp
  | loop isList =>
    rw [mergedContent]
    · exact .malformed _
    · simp
    · simp

theorem blames_mergedContents (ns : List Node) :
    Blames (fun u => ∃ n ∈ ns, n.HasUnreadable u) (mergedContents ns) := by
  cases ns with
  | nil =>
    rw [mergedContents]
    exact .ok _
  | cons n rest =>
    cases n with
    | map tag entries =>
      rw [mergedContents]
      refine .bind ?_ fun _ _ => .bind ?_ fun _ _ => .ok _
      · exact (blames_entryContents {} entries).mono fun u h =>
          ⟨_, List.mem_cons_self, Node.hasUnreadable_of_entry h⟩
      · exact (blames_mergedContents rest).of_rest
    | _ =>
      rw [mergedContents]
      · exact .malformed _
      · simp

end

end Scribe.Yaml
