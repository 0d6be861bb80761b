import Scribe.Proofs.Text.Numeral
import Scribe.Settings

/-!
# The viewport of the settings

The environment gives a page a size that is not negative (`Scribe.Settings.isSized_ofEnvironment`):
a variable that holds something else is passed over. The option of the command line is another
matter. It is put in lower case and divided before its parts are read, which is the same as reading
the parts around its one cross as they are (`Scribe.Settings.readViewport_of_isJoined`), and the
width is taken over before it is known whether there is a height.

So three things can become of it: both sides are set, negative ones too; the width alone is set,
with a warning; or nothing is set, with a warning (`Scribe.Settings.override_viewport`).
-/

namespace Scribe

open Text

namespace Settings

/-! ### The environment -/

/-- **A page of some size**: neither side is negative. -/
structure IsSized (s : Settings) : Prop where
  width : 0 ≤ s.viewportWidth
  height : 0 ≤ s.viewportHeight

theorem nonneg_of_readNonNegative {name raw : String} {n : ℤ}
    (h : readNonNegative name raw = .ok n) : 0 ≤ n := by
  rw [readNonNegative] at h
  split at h
  · cases h
  · split at h
    · cases h
    · next hn => exact Except.ok.inj h ▸ Int.not_lt.mp hn

theorem IsSized.readNumeric {env : Environment} {state : Settings × List SettingWarning}
    (h : state.1.IsSized) {field : String × (Settings → ℤ → Settings)}
    (hfield : field ∈ numericVariables) : (readNumeric env state field).1.IsSized := by
  rw [Settings.readNumeric]
  split
  · exact h
  · split
    · next n hn =>
      have hpos := nonneg_of_readNonNegative hn
      simp only [numericVariables, List.mem_cons, List.not_mem_nil, or_false] at hfield
      rcases hfield with rfl | rfl | rfl | rfl
      · exact ⟨h.width, h.height⟩
      · exact ⟨h.width, h.height⟩
      · exact ⟨hpos, h.height⟩
      · exact ⟨h.width, hpos⟩
    · exact h

/-- **The settings of an environment** give a page some size. -/
theorem isSized_ofEnvironment (env : Environment) : (ofEnvironment env).1.IsSized := by
  have hfold (fields : List (String × (Settings → ℤ → Settings)))
      (hfields : ∀ field ∈ fields, field ∈ numericVariables)
      (state : Settings × List SettingWarning) (h : state.1.IsSized) :
      (fields.foldl (Settings.readNumeric env) state).1.IsSized := by
    induction fields generalizing state with
    | nil => exact h
    | cons field rest ih =>
      obtain ⟨hfield, hrest⟩ := List.forall_mem_cons.mp hfields
      exact ih hrest _ (h.readNumeric hfield)
  refine hfold numericVariables (fun _ h => h) _ ?_
  -- the variables in front of them leave both sides as they are
  have hdefault (t : String) (i : String) (b : Bool) :
      ({ target := t, testIdAttribute := i, headed := b } : Settings).IsSized :=
    ⟨by simp, by simp⟩
  cases env.lookup "RECGEN_TARGET" <;> cases env.lookup "RECGEN_TEST_ID_ATTRIBUTE" <;>
    cases env.lookup "RECGEN_HEADED"
  all_goals dsimp only [Option.elim]
  all_goals first
    | exact hdefault ..
    | (split <;> exact hdefault ..)

/-! ### The option -/

/-- **Two texts around one cross.** -/
structure IsJoined (text left right : List Char) : Prop where
  joined : ∃ cross, IsCross cross ∧ text = left ++ cross :: right
  left_free : ∀ c ∈ left, ¬IsCross c
  right_free : ∀ c ∈ right, ¬IsCross c

variable {text left right : List Char} {raw : String} {s : Settings}

theorem splitOn_eq_singleton {t : List Char} (h : 'x' ∉ t) : t.splitOn 'x' = [t] :=
  List.splitOnP_eq_singleton fun _ hc => beq_eq_false_iff_ne.mpr (ne_of_mem_of_not_mem hc h)

theorem splitOn_append_cons {t₁ t₂ : List Char} (h : 'x' ∉ t₁) :
    (t₁ ++ 'x' :: t₂).splitOn 'x' = t₁ :: t₂.splitOn 'x' := by
  have hsplit : (t₁ ++ 'x' :: t₂).splitOn 'x' = t₁.splitOn 'x' ++ t₂.splitOn 'x' :=
    List.splitOnP_append_cons t₁ t₂ (beq_self_eq_true 'x')
  rw [hsplit, splitOn_eq_singleton h, List.singleton_append]

/-- **Around one cross**, a text in lower case divides into its two parts in lower case. -/
theorem IsJoined.splitOn_lower (h : IsJoined text left right) :
    ∃ w h, (lower text).splitOn 'x' = [w, h] ∧ IsLowered left w ∧ IsLowered right h := by
  obtain ⟨cross, hcross, rfl⟩ := h.joined
  obtain ⟨t₁, t₂, hlower, h₁, h₂⟩ := (isLowered_lowerFrom [] _).cross_inv hcross
  refine ⟨t₁, t₂, ?_, h₁, h₂⟩
  rw [lower, hlower, splitOn_append_cons (h₁.not_mem_cross h.left_free),
    splitOn_eq_singleton (h₂.not_mem_cross h.right_free)]

/-- A text has no cross, or a first one. -/
theorem exists_first_cross (text : List Char) :
    (∀ c ∈ text, ¬IsCross c) ∨
      ∃ left cross right, text = left ++ cross :: right ∧ IsCross cross ∧
        ∀ c ∈ left, ¬IsCross c := by
  cases h : text.find? fun c => decide (IsCross c) with
  | none => exact .inl (by simpa using h)
  | some cross =>
    obtain ⟨hcross, left, right, rfl, hleft⟩ := List.find?_eq_some_iff_append.mp h
    exact .inr ⟨left, cross, right, rfl, by simpa using hcross, by simpa using hleft⟩

/-- **With no cross or several**, it does not divide into two parts. -/
theorem length_splitOn_lower_ne (h : ∀ left right, ¬IsJoined text left right) :
    ((lower text).splitOn 'x').length ≠ 2 := by
  have hlower := isLowered_lowerFrom [] text
  rw [lower]
  rcases exists_first_cross text with hfree | ⟨left, cross, right, rfl, hcross, hleft⟩
  · rw [splitOn_eq_singleton (hlower.not_mem_cross hfree)]
    exact Nat.succ_ne_succ_iff.mpr Nat.zero_ne_one
  rcases exists_first_cross right with hfree | ⟨middle, cross', right, rfl, hcross', hmiddle⟩
  · exact absurd ⟨⟨cross, hcross, rfl⟩, hleft, hfree⟩ (h left right)
  obtain ⟨t₁, t, heq, h₁, ht⟩ := hlower.cross_inv hcross
  obtain ⟨t₂, t₃, rfl, h₂, -⟩ := ht.cross_inv hcross'
  rw [heq, splitOn_append_cons (h₁.not_mem_cross hleft),
    splitOn_append_cons (h₂.not_mem_cross hmiddle), List.length_cons, List.length_cons]
  have hmore : 0 < (t₃.splitOn 'x').length :=
    List.length_pos_iff.mpr (List.splitOnP_ne_nil (· == 'x') t₃)
  omega

/-- **A viewport**: two integers around one cross. -/
def IsViewport (raw : String) (w h : ℤ) : Prop :=
  ∃ left right, IsJoined raw.toList left right ∧ readInt? left = some w ∧ readInt? right = some h

/-- **Half a viewport**: an integer and something else around one cross. -/
def IsHalfViewport (raw : String) (w : ℤ) : Prop :=
  ∃ left right, IsJoined raw.toList left right ∧ readInt? left = some w ∧ readInt? right = none

theorem readViewport_of_isJoined (s : Settings) (h : IsJoined raw.toList left right) :
    s.readViewport raw =
      match readInt? left, readInt? right with
      | some w, some h => ({ s with viewportWidth := w, viewportHeight := h }, [])
      | some w, none => ({ s with viewportWidth := w }, [.viewport raw])
      | none, _ => (s, [.viewport raw]) := by
  obtain ⟨w, h, hsplit, hleft, hright⟩ := h.splitOn_lower
  cases hw : readInt? left <;> cases hh : readInt? right <;>
    simp only [readViewport, hsplit, hleft.readInt?_eq, hright.readInt?_eq, hw, hh]

theorem readViewport_of_not_isJoined (s : Settings)
    (h : ∀ left right, ¬IsJoined raw.toList left right) :
    s.readViewport raw = (s, [.viewport raw]) := by
  rw [readViewport]
  split
  · next w h' hsplit => exact absurd (by rw [hsplit]; rfl) (length_splitOn_lower_ne h)
  · rfl

/-- The two texts are what stands before and behind the first cross. -/
theorem IsJoined.eq (h : IsJoined text left right) :
    left = text.takeWhile (fun c => decide ¬IsCross c) ∧
      right = (text.dropWhile fun c => decide ¬IsCross c).tail := by
  obtain ⟨cross, hcross, rfl⟩ := h.joined
  have hleft (c : Char) (hc : c ∈ left) : decide (¬IsCross c) = true :=
    decide_eq_true (h.left_free c hc)
  rw [List.takeWhile_append_of_pos hleft, List.dropWhile_append_of_pos hleft]
  simp [hcross]

/-- **What becomes of the settings** under a viewport and the other options: both sides are set; or
the width alone is set, with a warning; or nothing is set, with a warning. -/
theorem override_viewport_cases (s : Settings) (o : SettingOptions) (raw : String) :
    let base := (s.override { o with viewport := none }).1
    let result := s.override { o with viewport := some raw }
    (∃ w h, IsViewport raw w h ∧
        result = ({ base with viewportWidth := w, viewportHeight := h }, [])) ∨
      (∃ w, IsHalfViewport raw w ∧
        result = ({ base with viewportWidth := w }, [.viewport raw])) ∨
      (¬∃ w h, IsViewport raw w h) ∧ (¬∃ w, IsHalfViewport raw w) ∧
        result = (base, [.viewport raw]) := by
  intro base result
  have hresult : result = base.readViewport raw := rfl
  rw [hresult]
  by_cases hjoined : ∃ left right, IsJoined raw.toList left right
  · obtain ⟨left, right, h⟩ := hjoined
    rw [readViewport_of_isJoined base h]
    cases hleft : readInt? left with
    | none =>
      have hsame {left' right' : List Char} (h' : IsJoined raw.toList left' right') :
          readInt? left' = none := by
        rw [h'.eq.1, ← h.eq.1, hleft]
      refine .inr (.inr ⟨?_, ?_, rfl⟩)
      · rintro ⟨w, h, left', right', h', hw, -⟩
        cases (hsame h').symm.trans hw
      · rintro ⟨w, left', right', h', hw, -⟩
        cases (hsame h').symm.trans hw
    | some w =>
      cases hright : readInt? right with
      | none => exact .inr (.inl ⟨w, ⟨left, right, h, hleft, hright⟩, rfl⟩)
      | some h' => exact .inl ⟨w, h', ⟨left, right, h, hleft, hright⟩, rfl⟩
  · have hnone (left right : List Char) : ¬IsJoined raw.toList left right :=
      fun h => hjoined ⟨left, right, h⟩
    refine .inr (.inr ⟨?_, ?_, readViewport_of_not_isJoined base hnone⟩)
    · exact fun ⟨_, _, left, right, h, _⟩ => hnone left right h
    · exact fun ⟨_, left, right, h, _⟩ => hnone left right h

/-- The sides of a viewport. -/
theorem IsViewport.unique {w h w' h' : ℤ} (hv : IsViewport raw w h) (hv' : IsViewport raw w' h') :
    w = w' ∧ h = h' := by
  obtain ⟨left, right, hjoined, hw, hh⟩ := hv
  obtain ⟨left', right', hjoined', hw', hh'⟩ := hv'
  rw [hjoined.eq.1, ← hjoined'.eq.1, hw'] at hw
  rw [hjoined.eq.2, ← hjoined'.eq.2, hh'] at hh
  exact ⟨(Option.some.inj hw).symm, (Option.some.inj hh).symm⟩

theorem IsHalfViewport.unique {w w' : ℤ} (hv : IsHalfViewport raw w)
    (hv' : IsHalfViewport raw w') : w = w' := by
  obtain ⟨left, right, hjoined, hw, -⟩ := hv
  obtain ⟨left', right', hjoined', hw', -⟩ := hv'
  rw [hjoined.eq.1, ← hjoined'.eq.1, hw'] at hw
  exact (Option.some.inj hw).symm

/-- A viewport is not half of one. -/
theorem IsViewport.not_isHalfViewport {w h w' : ℤ} (hv : IsViewport raw w h) :
    ¬IsHalfViewport raw w' := by
  rintro ⟨left', right', hjoined', -, hright'⟩
  obtain ⟨left, right, hjoined, -, hright⟩ := hv
  rw [hjoined.eq.2, ← hjoined'.eq.2, hright'] at hright
  cases hright

/-- **All or nothing**: the size is that of a viewport without negative sides, or it is kept with a
warning. -/
def SetsOrKeeps (before after : Settings) (warnings : List SettingWarning) (raw : String) : Prop :=
  (∃ w h, IsViewport raw w h ∧ 0 ≤ w ∧ 0 ≤ h ∧
      after.viewportWidth = w ∧ after.viewportHeight = h) ∨
    SettingWarning.viewport raw ∈ warnings ∧
      after.viewportWidth = before.viewportWidth ∧ after.viewportHeight = before.viewportHeight

/-- **When it is all or nothing**: the option is no viewport with a negative side, and not half of
one with another width than before. -/
theorem isSized_and_setsOrKeeps_iff (hs : s.IsSized) (o : SettingOptions) (raw : String) :
    (s.override { o with viewport := some raw }).1.IsSized ∧
        SetsOrKeeps s (s.override { o with viewport := some raw }).1
          (s.override { o with viewport := some raw }).2 raw ↔
      (¬∃ w h, IsViewport raw w h ∧ (w < 0 ∨ h < 0)) ∧
        ¬∃ w, IsHalfViewport raw w ∧ w ≠ s.viewportWidth := by
  rcases override_viewport_cases s o raw with
    ⟨w, h, hv, heq⟩ | ⟨w, hhalf, heq⟩ | ⟨hwhole, hhalf, heq⟩
  · have hnotHalf : ¬∃ w, IsHalfViewport raw w ∧ w ≠ s.viewportWidth :=
      fun ⟨_, hhalf, _⟩ => hv.not_isHalfViewport hhalf
    rw [and_iff_left hnotHalf, heq]
    constructor
    · rintro ⟨⟨hw, hh⟩, -⟩ ⟨w', h', hv', hneg⟩
      obtain ⟨rfl, rfl⟩ := hv.unique hv'
      exact hneg.elim (Int.not_lt.mpr hw) (Int.not_lt.mpr hh)
    · intro hpos
      have hw : 0 ≤ w := Int.not_lt.mp fun hneg => hpos ⟨w, h, hv, .inl hneg⟩
      have hh : 0 ≤ h := Int.not_lt.mp fun hneg => hpos ⟨w, h, hv, .inr hneg⟩
      exact ⟨⟨hw, hh⟩, .inl ⟨w, h, hv, hw, hh, rfl, rfl⟩⟩
  · have hnotWhole : ¬∃ w h, IsViewport raw w h ∧ (w < 0 ∨ h < 0) :=
      fun ⟨_, _, hv, _⟩ => hv.not_isHalfViewport hhalf
    rw [and_iff_right hnotWhole, heq]
    constructor
    · rintro ⟨-, ⟨_, _, hv, _⟩ | ⟨-, hw, -⟩⟩ ⟨w', hhalf', hne⟩
      · exact hv.not_isHalfViewport hhalf
      · exact hne ((hhalf'.unique hhalf).trans hw)
    · intro hsame
      have hw : w = s.viewportWidth := by_contra fun hne => hsame ⟨w, hhalf, hne⟩
      exact ⟨⟨hw ▸ hs.width, hs.height⟩, .inr ⟨List.mem_singleton_self _, hw, rfl⟩⟩
  · rw [heq]
    refine iff_of_true ⟨⟨hs.width, hs.height⟩, .inr ⟨List.mem_singleton_self _, rfl, rfl⟩⟩
      ⟨?_, ?_⟩
    · exact fun ⟨w, h, hv, _⟩ => hwhole ⟨w, h, hv⟩
    · exact fun ⟨w, hv, _⟩ => hhalf ⟨w, hv⟩

/-- **The viewport after the environment and the command line.** The environment gives a page some
size; what becomes of it under an option is one of three things, as the option is a viewport, half
of one, or neither. The page has some size and the option has set it or kept it, if and only if the
option is no viewport with a negative side, and not half of one with another width than before. -/
theorem override_viewport (env : Environment) (o : SettingOptions) (raw : String) :
    let before := (ofEnvironment env).1
    let base := (before.override { o with viewport := none }).1
    let result := before.override { o with viewport := some raw }
    before.IsSized ∧
      ((∃ w h, IsViewport raw w h ∧
          result = ({ base with viewportWidth := w, viewportHeight := h }, [])) ∨
        (∃ w, IsHalfViewport raw w ∧
          result = ({ base with viewportWidth := w }, [.viewport raw])) ∨
        (¬∃ w h, IsViewport raw w h) ∧ (¬∃ w, IsHalfViewport raw w) ∧
          result = (base, [.viewport raw])) ∧
      (result.1.IsSized ∧ SetsOrKeeps before result.1 result.2 raw ↔
        (¬∃ w h, IsViewport raw w h ∧ (w < 0 ∨ h < 0)) ∧
          ¬∃ w, IsHalfViewport raw w ∧ w ≠ before.viewportWidth) :=
  ⟨isSized_ofEnvironment env, override_viewport_cases _ o raw,
    isSized_and_setsOrKeeps_iff (isSized_ofEnvironment env) o raw⟩

/-- A width without a height is taken over, and negative sides are set without a warning. -/
theorem override_half_viewport :
    (ofEnvironment []).1.override { viewport := some "100xabc" } =
        ({ viewportWidth := 100 }, [.viewport "100xabc"]) ∧
      (ofEnvironment []).1.override { viewport := some "-5x10" } =
        ({ viewportWidth := -5, viewportHeight := 10 }, []) := by
  decide +kernel

end Settings

end Scribe
