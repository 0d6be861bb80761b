import Mathlib.Data.List.Basic
import Mathlib.Tactic.IntervalCases
import Scribe.Yaml.Print

/-!
# What a printed text is made of

**A printed text holds only characters that show**, whatever strings the value holds: what does not
show is written by escapes. So it holds no carriage return, and does not change when the line
endings of its file are turned into line feeds.

* `Scribe.Value.IsBasic` – the values without dates, numbers in floating point and bytes;
* `Scribe.Yaml.Shows` – the texts in which every character shows;
* `Scribe.Yaml.shows_stringText` – the text of a string, in each of the three styles;
* `Scribe.Yaml.shows_print` – the text of a basic value.
-/

namespace Scribe

/-- **Basic values**: those made of `null`, booleans, integers and strings by lists and maps. -/
inductive Value.IsBasic : Value → Prop where
  | null : IsBasic .null
  | bool (b : Bool) : IsBasic (.bool b)
  | int (n : Int) : IsBasic (.int n)
  | str (s : String) : IsBasic (.str s)
  | list {items : List Value} (h : ∀ v ∈ items, IsBasic v) : IsBasic (.list items)
  | map {entries : List (Value × Value)} (hkeys : ∀ e ∈ entries, IsBasic e.1)
      (hvalues : ∀ e ∈ entries, IsBasic e.2) : IsBasic (.map entries)

namespace Yaml

/-- Every character of a text shows. -/
def Shows (text : List Char) : Prop :=
  ∀ c ∈ text, isShown c

instance (text : List Char) : Decidable (Shows text) :=
  decidable_of_iff (text.all isShown) (by simp [Shows])

@[simp] theorem shows_nil : Shows [] := nofun

@[simp] theorem shows_cons {c : Char} {text : List Char} :
    Shows (c :: text) ↔ isShown c ∧ Shows text := by
  simp [Shows]

@[simp] theorem shows_append {s t : List Char} : Shows (s ++ t) ↔ Shows s ∧ Shows t := by
  simp [Shows, or_imp, forall_and]

theorem shows_replicate (n : Nat) {c : Char} (hc : isShown c) : Shows (List.replicate n c) :=
  fun _ hx => List.eq_of_mem_replicate hx ▸ hc

theorem shows_flatMap {α : Type} {xs : List α} {f : α → List Char} (h : ∀ x ∈ xs, Shows (f x)) :
    Shows (xs.flatMap f) := fun c hc =>
  have ⟨x, hx, hcx⟩ := List.mem_flatMap.mp hc
  h x hx c hcx

/-! ### Strings -/

theorem isShown_hexDigit {d : Nat} (hd : d < 16) : isShown (Nat.digitChar d).toUpper := by
  interval_cases d <;> rfl

theorem shows_hexDigits (count n : Nat) : Shows (hexDigits count n) := by
  induction count generalizing n with
  | zero => exact shows_nil
  | succ count ih => simp [hexDigits, ih, isShown_hexDigit (Nat.mod_lt n (by decide : 16 > 0))]

theorem isShown_of_lookup {c letter : Char} (h : letterEscapes.lookup c = some letter) :
    isShown letter := by
  have hletters : letterEscapes.all fun e => isShown e.2 := rfl
  obtain ⟨before, after, heq, -⟩ := List.lookup_eq_some_iff.mp h
  exact List.all_eq_true.mp hletters (c, letter) (by simp [heq])

/-- What a character is written as between double quotes shows, whether it does itself or not. -/
theorem shows_escaped (c : Char) : Shows (escaped c) := by
  have hslash : isShown '\\' := rfl
  unfold escaped
  split
  case h_1 letter hletter => simp [hslash, isShown_of_lookup hletter]
  case h_2 =>
    split
    case isTrue hc => simpa using hc
    case isFalse => split_ifs <;> simp [hslash, shows_hexDigits] <;> rfl

theorem shows_singleText (indent : Nat) {s : List Char} (hs : Shows s) :
    Shows (singleText indent s) := by
  induction s with
  | nil => exact shows_nil
  | cons c rest ih =>
    obtain ⟨hc, hrest⟩ := shows_cons.mp hs
    unfold singleText
    split_ifs
    · simpa [hc, ih hrest] using shows_replicate indent rfl
    · simpa [hc] using ih hrest

theorem shows_of_isPlainSafe {s : List Char} (hs : isPlainSafe s) : Shows s := by
  cases s with
  | nil => exact shows_nil
  | cons c rest =>
    simp only [isPlainSafe, Bool.and_eq_true, List.all_eq_true] at hs
    exact hs.1.1.1.2

theorem shows_of_isSingleSafe {s : List Char} (hs : isSingleSafe s) : Shows s := by
  simp only [isSingleSafe, Bool.and_eq_true, List.all_eq_true] at hs
  exact hs.1.1

theorem shows_of_styleOf_plain {s : List Char} (h : styleOf s = .plain) : Shows s := by
  refine shows_of_isPlainSafe ?_
  unfold styleOf at h
  grind

theorem shows_of_styleOf_single {s : List Char} (h : styleOf s = .single) : Shows s := by
  refine shows_of_isSingleSafe ?_
  unfold styleOf at h
  grind

/-- **The text of a string shows**: a string that does not show is written with escapes. -/
theorem shows_stringText (indent : Nat) (s : List Char) : Shows (stringText indent s) := by
  cases hstyle : styleOf s with
  | plain => simpa [stringText, hstyle] using shows_of_styleOf_plain hstyle
  | single =>
    have hquote : isShown '\'' := rfl
    have htext := shows_singleText indent (shows_of_styleOf_single hstyle)
    simpa [stringText, hstyle, hquote] using htext
  | double =>
    have hquote : isShown '"' := rfl
    simpa [stringText, hstyle, hquote] using shows_flatMap fun c _ => shows_escaped c

/-! ### Scalars -/

theorem isShown_of_isDigit {c : Char} (hc : c.isDigit) : isShown c := by
  have hrange : 0x30 ≤ c.toNat ∧ c.toNat ≤ 0x39 := by
    simpa [Char.isDigit, UInt32.le_iff_toNat_le] using hc
  have hlow : 0x20 ≤ c.toNat ∧ c.toNat ≤ 0x7E := by omega
  simp [isShown, hlow]

theorem shows_natText (n : Nat) : Shows (Text.natText n) := fun _ hc =>
  isShown_of_isDigit (Nat.isDigit_of_mem_toDigits (by decide) (by decide) hc)

theorem shows_intText (n : Int) : Shows (Text.intText n) := by
  cases n with
  | ofNat n => exact shows_natText n
  | negSucc n => exact shows_cons.mpr ⟨rfl, shows_natText (n + 1)⟩

theorem shows_scalarText {v : Value} (hv : v.IsBasic) (indent : Nat) :
    Shows ((scalarText? indent v).getD []) := by
  cases hv with
  | null => exact shows_nil
  | bool b => cases b <;> exact of_decide_eq_true rfl
  | int n => exact shows_intText n
  | str s => exact shows_stringText indent s.toList
  | @list items => cases items <;> exact of_decide_eq_true rfl
  | @map entries => cases entries <;> exact of_decide_eq_true rfl

/-! ### Blocks -/

theorem shows_afterIndicator {indicator text : List Char} (hi : Shows indicator)
    (ht : Shows text) : Shows (afterIndicator indicator text) := by
  have hspace : isShown ' ' := rfl
  unfold afterIndicator
  split <;> simp [hi, ht, hspace]

theorem shows_hung {indicator : Char} (hi : isShown indicator) {ls : List (List Char)}
    (hls : ∀ l ∈ ls, Shows l) : ∀ l ∈ hung indicator ls, Shows l := by
  have hspace : isShown ' ' := rfl
  cases ls with
  | nil => simpa [hung] using hi
  | cons line rest => simpa [hung, hi, hspace] using hls

theorem shows_keyText {k : Value} (hk : k.IsBasic) (column : Nat) : Shows (keyText column k) := by
  have hcolon : isShown ':' := rfl
  simp [keyText, shows_scalarText hk, hcolon]

theorem shows_longKeyLines {k : Value} (hk : k.IsBasic) (column : Nat) :
    ∀ l ∈ longKeyLines column k, Shows l :=
  shows_hung rfl (by simpa using shows_scalarText hk (column + 2))

/-- The lines of a value show, whatever column it starts at. -/
def LinesShow (v : Value) : Prop :=
  ∀ column, ∀ l ∈ lines column v, Shows l

theorem linesShow_of_scalarText {v : Value} (hv : v.IsBasic)
    (hlines : ∀ column, lines column v = [(scalarText? (column + 2) v).getD []]) :
    LinesShow v := by
  intro column
  simpa [hlines] using shows_scalarText hv (column + 2)

theorem shows_itemLines {items : List Value} (hbasic : ∀ v ∈ items, v.IsBasic)
    (hitems : ∀ v ∈ items, LinesShow v) (column : Nat) :
    ∀ l ∈ itemLines column items, Shows l := by
  induction items with
  | nil => simp [itemLines]
  | cons v vs ih =>
    simp only [List.forall_mem_cons] at hbasic hitems
    rw [itemLines]
    refine List.forall_mem_append.mpr ⟨?_, ih hbasic.2 hitems.2⟩
    have hscalar := shows_scalarText hbasic.1 (column + 2)
    split
    case h_1 text htext =>
      rw [htext] at hscalar
      simpa using shows_afterIndicator (of_decide_eq_true rfl) hscalar
    case h_2 => exact shows_hung rfl (hitems.1 (column + 2))

theorem shows_entryLines {entries : List (Value × Value)} (hkeys : ∀ e ∈ entries, e.1.IsBasic)
    (hvalues : ∀ e ∈ entries, e.2.IsBasic) (hlines : ∀ e ∈ entries, LinesShow e.2)
    (column : Nat) : ∀ l ∈ entryLines column entries, Shows l := by
  induction entries with
  | nil => simp [entryLines]
  | cons e es ih =>
    obtain ⟨k, v⟩ := e
    simp only [List.forall_mem_cons] at hkeys hvalues hlines
    have hkey := shows_keyText hkeys.1 column
    have hspace : isShown ' ' := rfl
    rw [entryLines.eq_def]
    refine List.forall_mem_append.mpr ⟨?_, ih hkeys.2 hvalues.2 hlines.2⟩
    split_ifs
    -- A key on one line with its value: the lines of a list stay at the column, those of a map are
    -- moved, and both are lines of the value at some column.
    · split
      case h_1 x xs =>
        have hitems := hlines.1 column
        rw [lines] at hitems
        exact List.forall_mem_cons.mpr ⟨hkey, hitems⟩
      case h_2 x xs =>
        have hentries := hlines.1 (column + 2)
        rw [lines] at hentries
        exact List.forall_mem_cons.mpr ⟨hkey, by simpa [hspace] using hentries⟩
      case h_3 => simpa using shows_afterIndicator hkey (shows_scalarText hvalues.1 _)
    · exact List.forall_mem_append.mpr
        ⟨shows_longKeyLines hkeys.1 column, shows_hung rfl (hlines.1 (column + 2))⟩

/-- **The lines of a basic value show**, by the way in which it is made. An empty list or map stands
on one line, as scalars do. -/
theorem linesShow_of_isBasic {v : Value} (hv : v.IsBasic) : LinesShow v := by
  induction hv with
  | null => exact linesShow_of_scalarText .null fun _ => rfl
  | bool b => exact linesShow_of_scalarText (.bool b) fun _ => rfl
  | int n => exact linesShow_of_scalarText (.int n) fun _ => rfl
  | str s => exact linesShow_of_scalarText (.str s) fun _ => rfl
  | @list items hbasic ih =>
    cases items with
    | nil => exact linesShow_of_scalarText (.list hbasic) fun _ => rfl
    | cons v vs =>
      intro column
      rw [lines]
      exact shows_itemLines hbasic ih column
  | @map entries hkeys hvalues _ ih =>
    cases entries with
    | nil => exact linesShow_of_scalarText (.map hkeys hvalues) fun _ => rfl
    | cons e es =>
      intro column
      rw [lines]
      exact shows_entryLines hkeys hvalues ih column

/-- **The text of a basic value shows.** -/
theorem shows_print {v : Value} (hv : v.IsBasic) : Shows (print v) :=
  shows_flatMap fun l hl => shows_append.mpr ⟨linesShow_of_isBasic hv 0 l hl, of_decide_eq_true rfl⟩

end Yaml

end Scribe
