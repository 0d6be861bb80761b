import Scribe.Proofs.Program.Brackets.CSharp
import Scribe.Proofs.Program.Brackets.Java
import Scribe.Proofs.Program.Brackets.JavaScript
import Scribe.Proofs.Program.Brackets.Python
import Scribe.Proofs.Session.Program

/-!
# Brackets in programs

**Programs are well bracketed**, whatever texts their actions hold: a scan by the lexical rules of
the language comes through the program, finds each literal closed on its line, and no bracket open
at the end (`Scribe.Program.Catalog.scan_program`). There is one exception. C# counts U+0085 among
its line ends and it is not escaped, so a scan of a C# program breaks off at the first one, inside
of a literal.
-/

namespace Scribe.Program

open Text

namespace Catalog

/-- **The languages, each with its dialect** for literals and comments. -/
def dialects : List (Language × Dialect) :=
  [(JavaScript.script, .javaScript), (JavaScript.test, .javaScript), (Python.script, .python),
    (Python.asyncScript, .python), (Python.test, .python), (Java.program, .java),
    (CSharp.program, .csharp)]

/-- Each language of the catalog is there. -/
example : dialects.map (·.1) = languages :=
  rfl

theorem hasBrackets_of_mem_dialects {l : Language} {d : Dialect} (h : (l, d) ∈ dialects) :
    l.HasBrackets d := by
  simp only [dialects, List.mem_cons, List.not_mem_nil, or_false, Prod.mk.injEq] at h
  rcases h with ⟨rfl, rfl⟩ | ⟨rfl, rfl⟩ | ⟨rfl, rfl⟩ | ⟨rfl, rfl⟩ | ⟨rfl, rfl⟩ | ⟨rfl, rfl⟩ |
    ⟨rfl, rfl⟩
  · exact JavaScript.script_hasBrackets
  · exact JavaScript.test_hasBrackets
  · exact Python.script_hasBrackets
  · exact Python.asyncScript_hasBrackets
  · exact Python.test_hasBrackets
  · exact Java.program_hasBrackets
  · exact CSharp.program_hasBrackets

/-- Line feeds and carriage returns end lines in each dialect, and none is left in a literal. -/
theorem breaks_not_left (d : Dialect) :
    ('\n' ∈ d.lineEnds ∧ d.leavesLineEnd '\n' = false) ∧
      '\r' ∈ d.lineEnds ∧ d.leavesLineEnd '\r' = false := by
  cases d <;> decide

theorem any_leavesLineEnd (d : Dialect) (text : List Char) :
    text.any d.leavesLineEnd = true ↔ d = .csharp ∧ '\u0085' ∈ text := by
  by_cases hd : d = .csharp
  · subst hd
    simp [Dialect.leavesLineEnd_csharp]
  · simp [Dialect.leavesLineEnd_eq_false hd, hd]

/-- **Programs are well bracketed.** -/
theorem scan_program {l : Language} {d : Dialect} (hl : (l, d) ∈ dialects) {actions : List Action}
    (hactions : ∀ a ∈ actions, a.HasNames) {aliases : AliasTable}
    (hroot : ∀ r ∈ aliases.root, isIdentifier r = true) :
    (∀ line ∈ l.body actions aliases, '\n' ∉ line.toList ∧ '\r' ∉ line.toList) ∧
      if d = .csharp ∧ '\u0085' ∈ (l.render actions aliases).toList then
        Scan.start.BreaksOff d (l.render actions aliases).toList
      else Scan.start.run d (l.render actions aliases).toList = some .start := by
  have hbrackets := hasBrackets_of_mem_dialects hl
  refine ⟨fun line hline => ?_, ?_⟩
  · have hends := (hbrackets.passes_body hactions hroot).ends line hline
    obtain ⟨⟨hfeed, hfeed'⟩, hreturn, hreturn'⟩ := breaks_not_left d
    exact ⟨fun hc => by simpa [hfeed'] using hends _ hc hfeed,
      fun hc => by simpa [hreturn'] using hends _ hc hreturn⟩
  · have hreaches := hbrackets.reaches_render hactions hroot
    split
    · next hleft => exact hreaches.breaksOff ((any_leavesLineEnd _ _).mpr hleft)
    · next hleft =>
      exact hreaches.run (Bool.eq_false_of_not_eq_true fun hany =>
        hleft ((any_leavesLineEnd _ _).mp hany))

/-- A click on an element whose name closes the literal, the call and the line in a careless
program. -/
theorem scan_program_of_sharp_name :
    let a : Action :=
      { kind := .click, page := "page", framePath := ["a[b='"], clickCount := 3,
        modifiers := ["Shift"],
        selector := some (.role "button" (some "\"));\n\\u0022//") true),
        signals := [⟨.popup, some "page1", none, true, none⟩] }
    let aliases : AliasTable := { root := some "page" }
    a.HasNames ∧ (∀ r ∈ aliases.root, isIdentifier r = true) ∧
      (Java.program, Dialect.java) ∈ dialects ∧
      Scan.start.run .java (Java.program.render [a] aliases).toList = some .start := by
  intro a aliases
  have hrole : ∀ s ∈ a.selector, s.HasNames := by
    rintro s ⟨⟩
    exact (by decide : isIdentifier "button" = true)
  have ha : a.HasNames := ⟨by decide, by decide, by decide, hrole, by decide, by decide, nofun⟩
  have hroot : ∀ r ∈ aliases.root, isIdentifier r = true := by decide
  have hlanguage : (Java.program, Dialect.java) ∈ dialects := by simp [dialects]
  have hscan := scan_program hlanguage (List.forall_mem_singleton.mpr ha) hroot
  exact ⟨ha, hroot, hlanguage, by simpa using hscan.2⟩

/-- **A C# literal that is not closed on its line**: the text of a fill is U+0085. -/
theorem breaksOff_of_next_line :
    let a : Action :=
      { kind := .fill, page := "page", selector := some (.css "#a" false), text := some "\u0085" }
    let aliases : AliasTable := { root := some "page" }
    a.HasNames ∧ (∀ r ∈ aliases.root, isIdentifier r = true) ∧
      (CSharp.program, Dialect.csharp) ∈ dialects ∧
      Scan.start.BreaksOff .csharp (CSharp.program.render [a] aliases).toList ∧
      Scan.start.run .csharp (CSharp.program.render [a] aliases).toList = none := by
  intro a aliases
  have hselector : ∀ s ∈ a.selector, s.HasNames := by
    rintro s ⟨⟩
    exact trivial
  have ha : a.HasNames := ⟨by decide, by decide, by decide, hselector, by decide, by decide, nofun⟩
  have hroot : ∀ r ∈ aliases.root, isIdentifier r = true := by decide
  have hlanguage : (CSharp.program, Dialect.csharp) ∈ dialects := by simp [dialects]
  have hbody : CSharp.program.body [a] aliases =
      ["await page.Locator(\"#a\").FillAsync(\"" ++ "\u0085" ++ "\");"] := by decide +kernel
  have hline : '\u0085' ∈
      ("await page.Locator(\"#a\").FillAsync(\"" ++ "\u0085" ++ "\");").toList := by
    rw [String.toList_append, String.toList_append]
    exact List.mem_append_left _ (List.mem_append_right _ (by decide))
  have hleft : '\u0085' ∈ (CSharp.program.render [a] aliases).toList :=
    CSharp.program_hasBrackets.mem_render (hbody ▸ List.mem_singleton_self _) hline
  have hreaches :=
    CSharp.program_hasBrackets.reaches_render (List.forall_mem_singleton.mpr ha) hroot
  have hbreaks := hreaches.breaksOff ((any_leavesLineEnd _ _).mpr ⟨rfl, hleft⟩)
  exact ⟨ha, hroot, hlanguage, hbreaks, Scan.run_eq_none_of_breaksOff hbreaks⟩

end Catalog

end Scribe.Program
