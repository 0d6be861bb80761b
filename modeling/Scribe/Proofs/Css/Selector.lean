import Scribe.Proofs.Css.Token
import Scribe.Proofs.Dom.Criterion

/-!
# Reading CSS: the selectors

**Selectors**, as far as the ones for elements of a page need them: compounds of a type and tests of
the identifier, of attributes and of the position among the siblings of the type, put together by
child combinators. `Scribe.Css.read` reads a text as a selector, and `Scribe.Css.Selector.Matches`
says of the elements of a snapshot whether they match it. Names and values are compared as they are.

`Scribe.Css.Denotes` says that a text is a selector which asks for just what a predicate asks for.

All other tests and combinators are refused, and so are blanks and signs in brackets.
-/

namespace Scribe

/-- **The position of an element** among the children of its parent that have its tag, counted from
one. -/
def Snapshot.IsNthOfType (s : Snapshot) (n : ℕ) (x : Element) : Prop :=
  ∃ before after, s.elements = before ++ x :: after ∧
    (before.countP fun y => y.parent == x.parent && y.tag == x.tag) + 1 = n

namespace Css

/-! ### Selectors and what they match -/

/-- **A test** in a selector. -/
inductive Test where
  /-- The identifier is the given one. -/
  | id (value : String)
  /-- The attribute has the value. -/
  | attribute (name value : String)
  /-- The element has the position among the siblings of its type. -/
  | nthOfType (n : ℕ)
  deriving Repr, DecidableEq

/-- **A compound selector**: a type, unless any will do, and tests. -/
structure Compound where
  type : Option String
  tests : List Test
  deriving Repr, DecidableEq

/-- **A selector**: what is asked of an element, and what is asked of its parent, of the parent of
that and so on. -/
structure Selector where
  subject : Compound
  parents : List Compound
  deriving Repr, DecidableEq

/-- Whether an element of a snapshot passes a test. -/
def Test.Holds (s : Snapshot) (x : Element) : Test → Prop
  | .id value => x.attribute? "id" = some value
  | .attribute name value => x.attribute? name = some value
  | .nthOfType n => s.IsNthOfType n x

/-- Whether an element of a snapshot is what a compound selector asks for. -/
def Compound.Holds (c : Compound) (s : Snapshot) (x : Element) : Prop :=
  (∀ tag ∈ c.type, x.tag = tag) ∧ ∀ t ∈ c.tests, t.Holds s x

/-- Whether the parent of an element, the parent of that and so on are what is asked for. -/
def HasParents (s : Snapshot) : List Compound → Element → Prop
  | [], _ => True
  | c :: rest, x => ∃ y ∈ s.elements, s.IsChild y x ∧ c.Holds s y ∧ HasParents s rest y

/-- **Whether an element of a snapshot matches a selector.** -/
def Selector.Matches (sel : Selector) (s : Snapshot) (x : Element) : Prop :=
  sel.subject.Holds s x ∧ HasParents s sel.parents x

/-! ### The grammar -/

/-- Reads the tests of a compound selector. -/
def readTests : List Token → Option (List Test)
  | [] => some []
  | .hash name true :: rest => (readTests rest).map (.id name :: ·)
  | .mark '[' :: .ident name :: .mark '=' :: .string value :: .mark ']' :: rest =>
    (readTests rest).map (.attribute name value :: ·)
  | .mark ':' :: .function "nth-of-type" :: .number n :: .mark ')' :: rest =>
    (readTests rest).map (.nthOfType n :: ·)
  | _ => none

/-- Reads a compound selector. -/
def readCompound : List Token → Option Compound
  | [] => none
  | .ident tag :: rest => (readTests rest).map (⟨some tag, ·⟩)
  | .mark '*' :: rest => (readTests rest).map (⟨none, ·⟩)
  | tokens => (readTests tokens).map (⟨none, ·⟩)

/-- Tokens without the blanks around them. -/
def trimBlanks (tokens : List Token) : List Token :=
  (tokens.dropWhile (· == .blank)).rdropWhile (· == .blank)

/-- Reads a selector: compounds with child combinators between them. -/
def readSelector (tokens : List Token) : Option Selector :=
  match ((tokens.splitOn (.mark '>')).map trimBlanks).mapM readCompound with
  | none => none
  | some compounds =>
    match compounds.reverse with
    | [] => none
    | subject :: parents => some ⟨subject, parents⟩

/-- **Reads a text as a selector.** -/
def read (text : String) : Option Selector :=
  (lex (taken text.toList)).bind readSelector

example : read "main > p:nth-of-type(2) >#x[type=\"a\\62\"] " =
    some ⟨⟨none, [.id "x", .attribute "type" "ab"]⟩,
      [⟨some "p", [.nthOfType 2]⟩, ⟨some "main", []⟩]⟩ := by
  decide +kernel

/-- The blanks around tokens that are none are cut off. -/
theorem trimBlanks_append {lead tokens trail : List Token} (hlead : ∀ t ∈ lead, t = .blank)
    (htokens : ∀ t ∈ tokens, t ≠ .blank) (htrail : ∀ t ∈ trail, t = .blank) :
    trimBlanks (lead ++ (tokens ++ trail)) = tokens := by
  cases tokens with
  | nil =>
    have hall : ∀ t ∈ lead ++ trail, (t == Token.blank) = true := by
      intro t ht
      rcases List.mem_append.mp ht with ht | ht
      · simpa using hlead t ht
      · simpa using htrail t ht
    rw [trimBlanks, List.nil_append, List.dropWhile_eq_nil_iff.mpr hall]
    rfl
  | cons t tokens =>
    have hfirst : ¬(t == Token.blank) = true := by simpa using htokens t List.mem_cons_self
    have hlast : (t :: tokens).rdropWhile (· == .blank) = t :: tokens :=
      List.rdropWhile_eq_self_iff.mpr fun hne => by simpa using htokens _ (List.getLast_mem hne)
    rw [trimBlanks, List.dropWhile_append_of_pos (by simpa using hlead), List.cons_append,
      List.dropWhile_cons_of_neg (p := (· == Token.blank)) hfirst, ← List.cons_append,
      List.rdropWhile, List.reverse_append, List.dropWhile_append_of_pos (by simpa using htrail)]
    exact hlast

/-- Reading all items of a list is reading each of them. -/
theorem mapM_eq_some_iff {α β : Type} {f : α → Option β} {l : List α} {read : List β} :
    l.mapM f = some read ↔ List.Forall₂ (fun a b => f a = some b) l read := by
  induction l generalizing read with
  | nil => simp [eq_comm]
  | cons a l ih =>
    simp only [List.mapM_cons, Option.bind_eq_bind, Option.bind_eq_some_iff, Option.pure_def,
      Option.some.injEq, ih]
    constructor
    · rintro ⟨b, hb, rest, hrest, rfl⟩
      exact .cons hb hrest
    · rintro (_ | ⟨hb, hrest⟩)
      exact ⟨_, hb, _, hrest, rfl⟩

/-- A child combinator as it is usually written, with blanks around it. -/
def childTokens : List Token :=
  [.blank, .mark '>', .blank]

/-- Compounds with combinators between them are taken apart again. -/
theorem splitOn_intercalate {pieces : List (List Token)} (hne : pieces ≠ [])
    (h : ∀ piece ∈ pieces, ∀ t ∈ piece, t ≠ .blank ∧ t ≠ .mark '>') {lead : List Token}
    (hlead : ∀ t ∈ lead, t = .blank) :
    ((lead ++ childTokens.intercalate pieces).splitOn (.mark '>')).map trimBlanks = pieces := by
  induction pieces generalizing lead with
  | nil => exact absurd rfl hne
  | cons piece pieces ih =>
    obtain ⟨hpiece, hpieces⟩ := List.forall_mem_cons.mp h
    have hblank : ∀ t ∈ piece, t ≠ .blank := fun t ht => (hpiece t ht).1
    cases pieces with
    | nil =>
      have hplain : ∀ t ∈ lead ++ piece, (t == Token.mark '>') = false := by
        intro t ht
        rcases List.mem_append.mp ht with ht | ht
        · rw [hlead t ht]
          rfl
        · simpa using (hpiece t ht).2
      have htrim : trimBlanks (lead ++ (piece ++ [])) = piece :=
        trimBlanks_append hlead hblank (by simp)
      rw [List.append_nil] at htrim
      rw [List.intercalate_singleton, List.splitOn, List.splitOnP_eq_singleton hplain,
        List.map_singleton, htrim]
    | cons next pieces =>
      have hplain : ∀ t ∈ lead ++ (piece ++ [.blank]), (t == Token.mark '>') = false := by
        intro t ht
        rcases List.mem_append.mp ht with ht | ht
        · rw [hlead t ht]
          rfl
        rcases List.mem_append.mp ht with ht | ht
        · simpa using (hpiece t ht).2
        · rw [List.mem_singleton.mp ht]
          rfl
      have hsplit : lead ++ childTokens.intercalate (piece :: next :: pieces) =
          (lead ++ (piece ++ [.blank])) ++ .mark '>' ::
            ([.blank] ++ childTokens.intercalate (next :: pieces)) := by
        rw [List.intercalate_cons_cons, childTokens]
        simp
      rw [hsplit, List.splitOn, List.splitOnP_append_cons_of_forall_mem hplain _ (by rfl),
        List.map_cons, trimBlanks_append hlead hblank (by simp)]
      exact congrArg (piece :: ·) (ih (by simp) hpieces (by simp))

/-- **Compounds with combinators between them** are read one by one. -/
theorem readSelector_intercalate {pieces : List (List Token)} {compounds parents : List Compound}
    {subject : Compound} (h : ∀ piece ∈ pieces, ∀ t ∈ piece, t ≠ .blank ∧ t ≠ .mark '>')
    (hread : List.Forall₂ (fun piece c => readCompound piece = some c) pieces compounds)
    (hcompounds : compounds.reverse = subject :: parents) :
    readSelector (childTokens.intercalate pieces) = some ⟨subject, parents⟩ := by
  have hne : pieces ≠ [] := by
    rintro rfl
    rw [List.forall₂_nil_left_iff.mp hread] at hcompounds
    cases hcompounds
  have hlead : ∀ t ∈ ([] : List Token), t = .blank := by simp
  have hpieces := splitOn_intercalate hne h hlead
  rw [List.nil_append] at hpieces
  rw [readSelector, hpieces, mapM_eq_some_iff.mpr hread]
  dsimp only
  rw [hcompounds]

/-- **A compound selector** may stand by itself. -/
theorem readSelector_eq {tokens : List Token} {c : Compound}
    (h : ∀ t ∈ tokens, t ≠ .blank ∧ t ≠ .mark '>') (hread : readCompound tokens = some c) :
    readSelector tokens = some ⟨c, []⟩ := by
  have hone : readSelector (childTokens.intercalate [tokens]) = some ⟨c, []⟩ :=
    readSelector_intercalate (by simpa using h) (.cons hread .nil) rfl
  rwa [List.intercalate_singleton] at hone

/-- **A text denotes a predicate** if it is a selector, and an element of a snapshot matches it if
and only if the predicate holds of the element. -/
def Denotes (text : String) (p : Element → Prop) : Prop :=
  ∃ sel, read text = some sel ∧ ∀ s : Snapshot, ∀ x ∈ s.elements, sel.Matches s x ↔ p x

end Css

end Scribe
