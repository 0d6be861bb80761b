import Scribe.Program.CSharp
import Scribe.Program.Java
import Scribe.Proofs.Dom.Identify
import Scribe.Proofs.Text.Case

/-!
# Roles in programs

A class names the role of an element by a constant, and writes the role in another case there: in
upper case in Java, and capitalized in C#. A role is whatever a page gives for one, so it has to be
asked which roles make an identifier (`Scribe.Snapshot.selectorCall_of_role`). Those of letters and
digits do. Nothing is done about the others: what they hold besides stands in the program as it is.
-/

namespace Scribe

open Text Program

namespace Snapshot

/-! ### Roles that are looked for -/

section

variable {s : Snapshot} {key : String} {e : Element} {kind : String} {name : Option String}
  {exact : Bool}

/-- **A role that is looked for** is the one of the element, and there is a name beside it. -/
theorem role_of_byRole (h : s.byRole e = some (.role kind name exact)) :
    e.role = some kind ∧ kind ≠ "" ∧ ∃ n, name = some n := by
  simp only [byRole, Option.bind_eq_bind, Option.bind_eq_some_iff] at h
  obtain ⟨role, hrole, n, hn, h⟩ := h
  obtain ⟨hkind, hne⟩ := nonEmpty?_eq_some_iff.mp hrole
  have hresult : role = kind ∧ some n = name := by
    split at h
    · cases h
      exact ⟨rfl, rfl⟩
    · split at h
      · cases h
        exact ⟨rfl, rfl⟩
      · cases h
  obtain ⟨rfl, rfl⟩ := hresult
  exact ⟨hkind, hne, n, rfl⟩

/-- The other strategies do not look for a role. -/
theorem ne_role_of_others (key : String) : s.byTestId key e ≠ some (.role kind name exact) ∧
    s.byLabel e ≠ some (.role kind name exact) ∧
    s.byPlaceholder e ≠ some (.role kind name exact) ∧
    s.byText e ≠ some (.role kind name exact) ∧
    s.byAttributes e ≠ some (.role kind name exact) := by
  simp only [byTestId, byLabel, byPlaceholder, byText, Option.bind_eq_bind, ne_eq,
    Option.bind_eq_some_iff, not_exists, not_and]
  refine ⟨fun id _ h => ?_, fun label _ h => ?_, fun placeholder _ h => ?_, fun text _ h => ?_,
    fun h => ?_⟩
  · split at h <;> cases h
  · split at h <;> cases h
  · split at h <;> cases h
  · split at h
    · split at h
      · split at h <;> cases h
      · cases h
    · cases h
  · obtain ⟨candidate, -, hcss⟩ := Option.map_eq_some_iff.mp h
    cases hcss

theorem byRole_of_identify (h : s.identify key e = .role kind name exact) :
    s.byRole e = some (.role kind name exact) := by
  have hsome : (s.byTestId key e <|> s.byRole e <|> s.byLabel e <|> s.byPlaceholder e
      <|> s.byText e <|> s.byAttributes e) = some (.role kind name exact) := by
    rw [identify] at h
    cases hfirst : (s.byTestId key e <|> s.byRole e <|> s.byLabel e <|> s.byPlaceholder e
      <|> s.byText e <|> s.byAttributes e) with
    | none =>
      rw [hfirst] at h
      cases h
    | some found =>
      rw [hfirst] at h
      exact congrArg some h
  simp only [Option.orElse_eq_orElse, ← Option.or_eq_orElse, Option.or_eq_some_iff,
    ne_role_of_others key, and_false, or_false, false_or] at hsome
  exact hsome.2

end

/-! ### Roles that are written -/

/-- The call that looks for a role in Java: options with a name follow the constant. -/
theorem java_selectorCall_role (inFrame : Bool) (n : String) (exact : Bool) :
    ∃ options, options.toList.head? = some ',' ∧ ∀ role,
      Java.selectorCall inFrame (.role role (some n) exact) =
        "getByRole(AriaRole." ++ uppered role ++ options := by
  let owner := if inFrame then "FrameLocator" else "Page"
  let setters := ".setName(" ++ Java.literal n ++ ")" ++ if exact then ".setExact(true)" else ""
  have hsetters : setters.isEmpty = false := by
    rw [← Bool.not_eq_true, String.isEmpty_iff, ← String.toList_inj]
    simp [setters]
  refine ⟨", new " ++ owner ++ ".GetByRoleOptions()" ++ setters ++ ")", by simp, fun role => ?_⟩
  have hcall : Java.selectorCall inFrame (.role role (some n) exact) =
      if setters.isEmpty then "getByRole(" ++ ("AriaRole." ++ uppered role) ++ ")"
      else "getByRole(" ++ ("AriaRole." ++ uppered role) ++ ", new " ++ owner ++
        ".GetByRoleOptions()" ++ setters ++ ")" := rfl
  rw [hcall, hsetters, if_neg Bool.false_ne_true, ← String.toList_inj]
  simp

/-- The call that looks for a role in C#: options with a name follow the constant. -/
theorem csharp_selectorCall_role (n : String) (exact : Bool) :
    ∃ options, options.toList.head? = some ',' ∧ ∀ role,
      CSharp.selectorCall (.role role (some n) exact) =
        "GetByRole(AriaRole." ++ CSharp.roleName role ++ options := by
  let items := ("NameString = " ++ CSharp.literal n) :: if exact then ["Exact = true"] else []
  refine ⟨", new() \x7b " ++ commaList items ++ " \x7d)", by simp, fun role => ?_⟩
  have hcall : CSharp.selectorCall (.role role (some n) exact) =
      "GetByRole(" ++ ("AriaRole." ++ CSharp.roleName role) ++ ", new() \x7b " ++ commaList items ++
        " \x7d)" := rfl
  rw [hcall, ← String.toList_inj]
  simp

/-- **The constant for a role is the role in another case**, in front of options that do not depend
on it. It is an identifier exactly if the role begins with no digit and is made of characters of
identifiers, those aside that only their other case brings into ASCII. -/
theorem selectorCall_of_role {s : Snapshot} {key : String} {e : Element} {kind : String}
    {name : Option String} {exact : Bool} (h : s.identify key e = .role kind name exact) :
    e.role = some kind ∧ ∃ first rest, kind.toList = first :: rest ∧
      (∀ inFrame, ∃ options, options.toList.head? = some ',' ∧ ∀ role,
        Java.selectorCall inFrame (.role role name exact) =
          "getByRole(AriaRole." ++ uppered role ++ options) ∧
      (Dialect.java.isIdentifier (uppered kind).toList = true ↔ first.isDigit = false ∧
        (∀ c ∈ first :: rest, Dialect.java.isNamePart c = true ∨ c ∈ asciiInUpper) ∧ kind ≠ "_") ∧
      (∃ options, options.toList.head? = some ',' ∧ ∀ role,
        CSharp.selectorCall (.role role name exact) =
          "GetByRole(AriaRole." ++ CSharp.roleName role ++ options) ∧
      (Dialect.csharp.isIdentifier (CSharp.roleName kind).toList = true ↔ first.isDigit = false ∧
        (Dialect.csharp.isNamePart first = true ∨ first ∈ asciiInUpper) ∧
          ∀ c ∈ rest, Dialect.csharp.isNamePart c = true ∨ c ∈ asciiInLower) := by
  obtain ⟨hrole, hne, n, rfl⟩ := role_of_byRole (byRole_of_identify h)
  obtain ⟨first, rest, hkind⟩ := List.exists_cons_of_ne_nil (mt String.toList_eq_nil_iff.mp hne)
  refine ⟨hrole, first, rest, hkind, fun inFrame => java_selectorCall_role inFrame n exact, ?_,
    csharp_selectorCall_role n exact, ?_⟩
  · have hmark : kind ≠ "_" ↔ ¬(Dialect.java = .java ∧ first :: rest = ['_']) := by
      rw [← hkind, ne_eq, ← String.toList_inj]
      simp
    rw [uppered, String.toList_ofList, hkind, isIdentifier_upper_cons, hmark]
  · have hname : (CSharp.roleName kind).toList = upperChar first ++ lower rest := by
      rw [CSharp.roleName, hkind, String.toList_ofList]
    rw [hname, isIdentifier_upperChar_append_lower (by decide)]

/-- The role of a checkbox makes an identifier in both languages. -/
theorem selectorCall_of_role_checkbox :
    let e : Element := { ref := "e1", tag := "input", role := some "checkbox", name := "Wi-Fi" }
    (Snapshot.mk [e]).identify "data-testid" e = .role "checkbox" (some "Wi-Fi") false ∧
      Dialect.java.isIdentifier (uppered "checkbox").toList = true ∧
      Dialect.csharp.isIdentifier (CSharp.roleName "checkbox").toList = true := by
  intro e
  have h : (Snapshot.mk [e]).identify "data-testid" e = .role "checkbox" (some "Wi-Fi") false := by
    decide +kernel
  obtain ⟨-, first, rest, hkind, -, hjava, -, hcsharp⟩ := selectorCall_of_role h
  obtain ⟨rfl, rfl⟩ : 'c' = first ∧ "heckbox".toList = rest := List.cons.inj hkind
  have hparts (d : Dialect) : ('c' :: "heckbox".toList).all d.isNamePart = true := by
    cases d <;> decide +kernel
  have hpart {d : Dialect} {c : Char} (hc : c ∈ 'c' :: "heckbox".toList) : d.isNamePart c = true :=
    List.all_eq_true.mp (hparts d) c hc
  exact ⟨h, hjava.mpr ⟨rfl, fun c hc => .inl (hpart hc), by decide⟩,
    hcsharp.mpr ⟨rfl, .inl (hpart List.mem_cons_self),
      fun c hc => .inl (hpart (List.mem_cons_of_mem _ hc))⟩⟩

/-- **A role of two words** makes two words of the constant, and no identifier. -/
theorem selectorCall_of_two_roles :
    let e : Element :=
      { ref := "e1", tag := "button", role := some "switch checkbox", name := "Wi-Fi" }
    let selector := (Snapshot.mk [e]).identify "data-testid" e
    selector = .role "switch checkbox" (some "Wi-Fi") false ∧
      Java.selectorCall false selector =
        "getByRole(AriaRole.SWITCH CHECKBOX, new Page.GetByRoleOptions().setName(\"Wi-Fi\"))" ∧
      Dialect.java.isIdentifier "SWITCH CHECKBOX".toList = false ∧
      CSharp.selectorCall selector =
        "GetByRole(AriaRole.Switch checkbox, new() \x7b NameString = \"Wi-Fi\" \x7d)" ∧
      Dialect.csharp.isIdentifier "Switch checkbox".toList = false := by
  decide +kernel

end Snapshot

end Scribe
