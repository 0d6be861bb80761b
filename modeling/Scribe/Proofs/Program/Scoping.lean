import Scribe.Proofs.Program.Plan
import Mathlib.Data.List.Nodup

/-!
# The scoping of plans

The popups of a press of no key are never declared. So the plan of a log is scoped exactly if
nothing is called on them (`Scribe.Program.planScoped_iff`); this is all that can go wrong, since
the log introduces its pages before it uses them. Nothing is declared twice in any case
(`Scribe.Program.nodup_vars_plan`), and the handlers of dialogs are numbered one after the other
(`Scribe.Program.pairwise_dialogs_planFrom`).
-/

namespace Scribe.Program

variable {root : Option String} {handlers : ℕ} {known : List String} {a : Action}
  {log : List Action}

/-! ### Comments -/

/-- The comments for the signals that an action missed. -/
def missingComments (a : Action) : List Statement :=
  a.incompleteSignals.map missingComment

theorem isPlain_missingComments : ∀ st ∈ missingComments a, st.IsPlain := by
  intro st hst
  obtain ⟨k, -, rfl⟩ := List.mem_map.mp hst
  cases k <;> exact ⟨by decide, by decide⟩

theorem uses_missingComments : (missingComments a).flatMap Statement.uses = [] := by
  simp [missingComments, missingComment, Statement.uses]

theorem vars_missingComments (rename : String → String) :
    (missingComments a).flatMap (Statement.vars rename) = [] := by
  simp [missingComments, missingComment, Statement.vars, Statement.waits]

theorem pages_missingComments : (missingComments a).flatMap Statement.pages = [] := by
  simp [missingComments, missingComment, Statement.pages, Statement.waits]

theorem dialogs_missingComments : (missingComments a).filterMap Statement.dialog? = [] := by
  simp [missingComments, missingComment, Statement.dialog?]

theorem planScoped_missingComments_append {sts : List Statement} :
    PlanScoped known (missingComments a ++ sts) ↔ PlanScoped known sts := by
  have hcomments : PlanScoped known (missingComments a) := by
    refine (scopedFrom_iff_of_disjoint ?_).mpr ?_ <;> simp [uses_missingComments]
  rw [PlanScoped, scopedFrom_append, pages_missingComments, List.append_nil]
  exact and_iff_right hcomments

/-! ### The statements of an action -/

/-- A page is opened, unless it is the root page, and its address is visited, unless it is blank. -/
theorem openStatements_eq (root : Option String) (a : Action) :
    ∃ visits, openStatements root a =
        (if some a.page == root then [] else [.openPage a.page]) ++ visits ∧
      (visits = [] ∨ ∃ url, visits = [.perform (.navigate a.page url)]) := by
  refine ⟨_, rfl, ?_⟩
  split
  · next url _ =>
    split
    · exact Or.inl rfl
    · exact Or.inr ⟨url, rfl⟩
  · exact Or.inl rfl

/-- **The statements of an action**: comments, and what opens or closes its page, or performs it
behind the handler of its dialog. -/
inductive Carries (root : Option String) (handlers : ℕ) (a : Action) :
    List Statement × ℕ → Prop
  | opened (kind : a.kind = .openPage) (signals : a.signals = []) :
      Carries root handlers a (missingComments a ++ openStatements root a, handlers)
  | closed (kind : a.kind = .closePage) (signals : a.signals = []) :
      Carries root handlers a (missingComments a ++ [.perform (.close a.page)], handlers)
  | answered {dismiss : Bool} {sts : List Statement} (kind : a.kind ≠ .openPage)
      (dialog : a.signal? .dialog ≠ none) (performed : Performed a sts) :
      Carries root handlers a
        (missingComments a ++ .answerDialog a.page dismiss (handlers + 1) :: sts, handlers + 1)
  | performed {sts : List Statement} (kind : a.kind ≠ .openPage)
      (dialog : a.signal? .dialog = none) (performed : Performed a sts) :
      Carries root handlers a (missingComments a ++ sts, handlers)

theorem carries_statementsOf (h : a.IsRecorded) (root : Option String) (handlers : ℕ) :
    Carries root handlers a (statementsOf root handlers a) := by
  have hsignals : a.kind = .openPage ∨ a.kind = .closePage → a.signals = [] := by
    intro hkind
    rcases h.form with ⟨-, hs⟩ | ⟨-, hs⟩ | ⟨hother, -⟩ | ⟨hother, -⟩ | ⟨hother, -⟩ | ⟨hother, -⟩
    · exact hs
    · exact hs
    · rcases hkind with hkind | hkind <;> cases hkind.symm.trans hother
    · rcases hkind with hkind | hkind <;> rcases hother with hother | hother <;>
        cases hkind.symm.trans hother
    · rcases hkind with hkind | hkind <;> cases hkind.symm.trans hother
    · rcases hkind with hkind | hkind <;> rw [hkind] at hother <;> exact absurd hother (by decide)
  rw [statementsOf]
  split
  · next hkind => exact .opened hkind (hsignals (Or.inl hkind))
  · next hkind => exact .closed hkind (hsignals (Or.inr hkind))
  · next hopen hclose =>
    have hperformed := performed_performStatements h hopen hclose
    split
    · next dialog hdialog => exact .answered hopen (by simp [hdialog]) hperformed
    · next hdialog => exact .performed hopen hdialog hperformed

namespace Carries

variable {r : List Statement × ℕ}

theorem isPlain (h : Carries root handlers a r) (ha : a.IsRecorded) : ∀ st ∈ r.1, st.IsPlain := by
  cases h with
  | opened kind signals =>
    obtain ⟨visits, heq, hvisits⟩ := openStatements_eq root a
    rw [heq]
    refine List.forall_mem_append.mpr ⟨isPlain_missingComments, List.forall_mem_append.mpr ⟨?_, ?_⟩⟩
    · split
      · simp
      · exact List.forall_mem_singleton.mpr ha.page
    · rcases hvisits with rfl | ⟨url, rfl⟩
      · simp
      · exact List.forall_mem_singleton.mpr ⟨ha.page, trivial⟩
  | closed kind signals =>
    refine List.forall_mem_append.mpr ⟨isPlain_missingComments, ?_⟩
    exact List.forall_mem_singleton.mpr ⟨ha.page, trivial⟩
  | answered kind dialog performed =>
    refine List.forall_mem_append.mpr ⟨isPlain_missingComments, List.forall_mem_cons.mpr ⟨?_, ?_⟩⟩
    · exact ha.page
    · exact performed.isPlain ha
  | performed kind dialog performed =>
    exact List.forall_mem_append.mpr ⟨isPlain_missingComments, performed.isPlain ha⟩

/-- No statement declares the root page or a page that it calls, if the popups are new. -/
theorem isFresh (h : Carries (some rootAlias) handlers a r) (ha : a.IsRecorded)
    (hnew : ∀ page ∈ a.popups, page ≠ rootAlias ∧ page ≠ a.page) : ∀ st ∈ r.1, st.IsFresh := by
  have hcomments : ∀ st ∈ missingComments a, st.IsFresh := by
    intro st hst
    obtain ⟨k, -, rfl⟩ := List.mem_map.mp hst
    intro page hpage
    cases hpage
  -- a statement that performs the action declares its popups only
  have hperformed : ∀ sts, Performed a sts → ∀ st ∈ sts, st.IsFresh := by
    intro sts hsts st hst page hpage
    have hpopup : page ∈ a.popups := by
      have hpages : page ∈ sts.flatMap Statement.pages := List.mem_flatMap.mpr ⟨st, hst, hpage⟩
      rw [hsts.pages ha] at hpages
      split at hpages
      · cases hpages
      · exact hpages
    obtain ⟨hroot, hne⟩ := hnew page hpopup
    refine ⟨hroot, fun huse => hne ?_⟩
    exact hsts.mem_uses (List.mem_flatMap.mpr ⟨st, hst, huse⟩)
  cases h with
  | opened kind signals =>
    obtain ⟨visits, heq, hvisits⟩ := openStatements_eq (some rootAlias) a
    rw [heq]
    refine List.forall_mem_append.mpr ⟨hcomments, List.forall_mem_append.mpr ⟨?_, ?_⟩⟩
    · split
      · simp
      · next hroot =>
        refine List.forall_mem_singleton.mpr fun page hpage => ⟨?_, by simp [Statement.uses]⟩
        obtain rfl := List.mem_singleton.mp hpage
        intro heq
        simp [heq] at hroot
    · rcases hvisits with rfl | ⟨url, rfl⟩
      · simp
      · refine List.forall_mem_singleton.mpr fun page hpage => ?_
        cases hpage
  | closed kind signals =>
    refine List.forall_mem_append.mpr ⟨hcomments,
      List.forall_mem_singleton.mpr fun page hpage => ?_⟩
    cases hpage
  | answered kind dialog performed =>
    refine List.forall_mem_append.mpr ⟨hcomments,
      List.forall_mem_cons.mpr ⟨fun page hpage => ?_, ?_⟩⟩
    · cases hpage
    · exact hperformed _ performed
  | performed kind dialog performed =>
    exact List.forall_mem_append.mpr ⟨hcomments, hperformed _ performed⟩

/-- Opening a page calls nothing that is not there. -/
theorem planScoped_openStatements (hroot : ∀ page ∈ root, page ∈ known) :
    PlanScoped known (openStatements root a) := by
  obtain ⟨visits, heq, hvisits⟩ := openStatements_eq root a
  rw [heq, PlanScoped, scopedFrom_append]
  have hpage : a.page ∈ known ++ (if some a.page == root then [] else
      [Statement.openPage a.page]).flatMap Statement.pages := by
    split
    · next heq => simpa using hroot a.page (beq_iff_eq.mp heq).symm
    · simp [Statement.pages]
  constructor
  · split
    · trivial
    · exact ⟨by simp [Statement.uses], trivial⟩
  · rcases hvisits with rfl | ⟨url, rfl⟩
    · trivial
    · exact ⟨fun name hname => List.mem_singleton.mp hname ▸ hpage, trivial⟩

/-- **The statements of an action are scoped** if the pages that it calls are known. -/
theorem planScoped_iff (h : Carries root handlers a r) (ha : a.IsRecorded)
    (hroot : ∀ page ∈ root, page ∈ known) (hnew : a.page ∉ a.popups) :
    PlanScoped known r.1 ↔ ∀ page ∈ a.calls, page ∈ known := by
  have hperformed : ∀ sts, Performed a sts →
      (PlanScoped known sts ↔ ∀ page ∈ sts.flatMap Statement.uses, page ∈ known) := by
    intro sts hsts
    refine scopedFrom_iff_of_disjoint fun page hpage => ?_
    rw [hsts.mem_uses hpage, hsts.pages ha]
    split
    · simp
    · exact hnew
  cases h with
  | opened kind signals =>
    have hcalls : a.calls = [] := if_pos (Or.inl kind)
    rw [planScoped_missingComments_append, hcalls]
    exact iff_of_true (planScoped_openStatements hroot) (by simp)
  | closed kind signals =>
    have hcalls : a.calls = [a.page] := by
      rw [Action.calls, if_neg]
      rintro (hopen | ⟨⟨hpress, -⟩, -⟩)
      · cases kind.symm.trans hopen
      · cases kind.symm.trans hpress
    rw [planScoped_missingComments_append, hcalls]
    exact and_iff_left trivial
  | @answered dismiss sts kind dialog performed =>
    have hcalls : a.calls = [a.page] := by
      rw [Action.calls, if_neg]
      rintro (hopen | ⟨-, hdialog⟩)
      · exact kind hopen
      · exact dialog hdialog
    rw [planScoped_missingComments_append, hcalls]
    -- the handler calls the page, and what follows calls no other
    refine ⟨fun hscoped => hscoped.1, fun hpage => ⟨hpage, ?_⟩⟩
    have hknown : known ++ (Statement.answerDialog a.page dismiss (handlers + 1)).pages = known :=
      List.append_nil known
    rw [hknown]
    refine (hperformed _ performed).mpr fun page huse => ?_
    rw [performed.mem_uses huse]
    exact hpage a.page List.mem_cons_self
  | @performed sts kind dialog performed =>
    rw [planScoped_missingComments_append, hperformed _ performed]
    by_cases hpress : a.IsEmptyPress
    · have hcalls : a.calls = [] := if_pos (Or.inr ⟨hpress, dialog⟩)
      rw [performed.uses_of_isEmptyPress hpress, hcalls]
    · have hcalls : a.calls = [a.page] := by
        rw [Action.calls, if_neg]
        rintro (hopen | ⟨hempty, -⟩)
        · exact kind hopen
        · exact hpress hempty
      rw [hcalls, List.forall_mem_singleton]
      constructor
      · intro huses
        exact huses a.page (performed.page_mem_uses hpress dialog)
      · intro hpage page huse
        exact performed.mem_uses huse ▸ hpage

/-- **The pages that are known afterwards**: those that the action declares, and those that were
known. -/
theorem mem_pages_iff (h : Carries root handlers a r) (ha : a.IsRecorded)
    (hroot : ∀ page ∈ root, page ∈ known) (page : String) :
    page ∈ known ++ r.1.flatMap Statement.pages ↔ page ∈ known ++ a.declares := by
  have hintroduces : a.kind ≠ .openPage → a.introduces = a.popups := fun hkind => by
    rw [Action.introduces, if_neg hkind, List.nil_append, Action.popups]
  have hperformed : a.kind ≠ .openPage → ∀ sts, Performed a sts →
      sts.flatMap Statement.pages = a.declares := by
    intro hkind sts hsts
    rw [hsts.pages ha, Action.declares, hintroduces hkind]
  cases h with
  | opened kind signals =>
    have hdeclares : a.declares = [a.page] := by
      rw [Action.declares, if_neg, Action.introduces, if_pos kind, signals]
      · rfl
      · intro hpress
        cases kind.symm.trans hpress.1
    obtain ⟨visits, heq, hvisits⟩ := openStatements_eq root a
    have hvisit : visits.flatMap Statement.pages = [] := by
      rcases hvisits with rfl | ⟨url, rfl⟩ <;> rfl
    rw [List.flatMap_append, pages_missingComments, List.nil_append, hdeclares, heq,
      List.flatMap_append, hvisit, List.append_nil]
    split
    · next heq =>
      -- the root page is not opened, but it is known to begin with
      have hpage : a.page ∈ known := hroot a.page (beq_iff_eq.mp heq).symm
      simp only [List.flatMap_nil, List.append_nil, List.mem_append, List.mem_singleton]
      exact ⟨Or.inl, fun hmem => hmem.elim id fun heq => heq ▸ hpage⟩
    · rfl
  | closed kind signals =>
    have hkind : a.kind ≠ .openPage := by simp [kind]
    have hdeclares : a.declares = [] := by
      rw [Action.declares, hintroduces hkind, Action.popups, signals]
      exact ite_self []
    rw [List.flatMap_append, pages_missingComments, hdeclares]
    rfl
  | answered kind dialog performed =>
    rw [List.flatMap_append, pages_missingComments, List.nil_append, List.flatMap_cons,
      hperformed kind _ performed]
    rfl
  | performed kind dialog performed =>
    rw [List.flatMap_append, pages_missingComments, List.nil_append, hperformed kind _ performed]

/-- **What is declared**, each time it is, is introduced by the action, or is a download. -/
theorem count_vars_le (h : Carries root handlers a r) (ha : a.IsRecorded)
    (rename : String → String) (name : String) :
    (r.1.flatMap (Statement.vars rename)).count name ≤
      a.introduces.count name + (a.downloads.map rename).count name := by
  have hintroduces : a.introduces.count name =
      (if a.kind = .openPage then [a.page] else []).count name + a.popups.count name :=
    List.count_append
  have hperformed : ∀ sts, Performed a sts → (sts.flatMap (Statement.vars rename)).count name ≤
      a.popups.count name + (a.downloads.map rename).count name := by
    intro sts hsts
    rw [hsts.vars ha]
    split
    · simp
    · rw [List.count_append]
  cases h with
  | opened kind signals =>
    obtain ⟨visits, heq, hvisits⟩ := openStatements_eq root a
    have hvisit : visits.flatMap (Statement.vars rename) = [] := by
      rcases hvisits with rfl | ⟨url, rfl⟩ <;> rfl
    have hopen : a.introduces.count name = [a.page].count name + a.popups.count name := by
      rw [hintroduces, if_pos kind]
    rw [List.flatMap_append, vars_missingComments, List.nil_append, heq, List.flatMap_append,
      hvisit, List.append_nil, hopen]
    split
    · simp
    · exact Nat.le_add_right_of_le (Nat.le_add_right _ _)
  | closed kind signals =>
    rw [List.flatMap_append, vars_missingComments, List.nil_append]
    exact Nat.zero_le _
  | answered kind dialog performed =>
    have hle := hperformed _ performed
    rw [List.flatMap_append, vars_missingComments, List.nil_append, List.flatMap_cons, hintroduces]
    exact Nat.le_trans hle (by omega)
  | performed kind dialog performed =>
    have hle := hperformed _ performed
    rw [List.flatMap_append, vars_missingComments, List.nil_append, hintroduces]
    omega

/-- **The handlers of dialogs are numbered**: there is one more, with the next number, or none. -/
theorem dialogs (h : Carries root handlers a r) :
    (r.1.filterMap Statement.dialog? = [] ∧ r.2 = handlers) ∨
      (r.1.filterMap Statement.dialog? = [(a.page, handlers + 1)] ∧ r.2 = handlers + 1) := by
  cases h with
  | opened kind signals =>
    refine Or.inl ⟨?_, rfl⟩
    obtain ⟨visits, heq, hvisits⟩ := openStatements_eq root a
    have hvisit : visits.filterMap Statement.dialog? = [] := by
      rcases hvisits with rfl | ⟨url, rfl⟩ <;> rfl
    rw [List.filterMap_append, dialogs_missingComments, heq, List.filterMap_append, hvisit]
    split <;> rfl
  | closed kind signals =>
    refine Or.inl ⟨?_, rfl⟩
    rw [List.filterMap_append, dialogs_missingComments]
    rfl
  | answered kind dialog performed =>
    refine Or.inr ⟨?_, rfl⟩
    rw [List.filterMap_append, dialogs_missingComments, List.nil_append, List.filterMap_cons,
      performed.dialog?]
    rfl
  | performed kind dialog performed =>
    refine Or.inl ⟨?_, rfl⟩
    rw [List.filterMap_append, dialogs_missingComments, performed.dialog?]
    rfl

end Carries

/-! ### Logs -/

/-- **A log of recorded actions** under aliases. -/
structure IsLog (log : List Action) : Prop where
  recorded : ∀ a ∈ log, a.IsRecorded
  inScope : Scoped (log.map Action.use)
  /-- The first action is on the root page. -/
  root : ∀ a ∈ log.head?, a.page = rootAlias
  /-- The downloads are numbered in order. -/
  downloads : ∃ n, log.flatMap Action.downloads = firstNames "download" n

theorem mem_introduces_of_mem_popups {page : String} (h : page ∈ a.popups) :
    page ∈ a.introduces :=
  List.mem_append_right _ h

namespace IsLog

theorem use_getElem? {i : ℕ} (ha : log[i]? = some a) : (log.map Action.use)[i]? = some a.use := by
  rw [List.getElem?_map, ha]
  rfl

/-- Only one action introduces a page. -/
theorem introduces_inj (h : IsLog log) {b : Action} {page : String} (ha : a ∈ log) (hb : b ∈ log)
    (hpa : page ∈ a.introduces) (hpb : page ∈ b.introduces) : a = b := by
  obtain ⟨i, hi⟩ := List.mem_iff_getElem?.mp ha
  obtain ⟨j, hj⟩ := List.mem_iff_getElem?.mp hb
  obtain rfl := h.inScope.place_unique (use_getElem? hi) (use_getElem? hj) hpa hpb
  exact Option.some.inj (hi.symm.trans hj)

/-- An action on a page that it does not open is behind the one that introduces the page. -/
theorem earlier (h : IsLog log) {before after : List Action} (hlog : log = before ++ a :: after)
    (hkind : a.kind ≠ .openPage) : ∃ b ∈ before, a.page ∈ b.introduces := by
  have ha : log[before.length]? = some a := by simp [hlog]
  obtain ⟨j, hj, v, hv, hpage⟩ := h.inScope.earlier _ _ (use_getElem? ha)
    (by simpa [Action.use] using hkind)
  rw [List.getElem?_map, Option.map_eq_some_iff] at hv
  obtain ⟨b, hb, rfl⟩ := hv
  rw [hlog, List.getElem?_append_left hj] at hb
  exact ⟨b, List.mem_iff_getElem?.mpr ⟨j, hb⟩, hpage⟩

/-- An action that opens its page has no popups. -/
theorem popups_of_opened (ha : a.IsRecorded) (hkind : a.kind = .openPage) : a.popups = [] := by
  rcases ha.form with ⟨-, hs⟩ | ⟨hother, -⟩ | ⟨hother, -⟩ | ⟨hother, -⟩ | ⟨hother, -⟩ | ⟨hother, -⟩
  · rw [Action.popups, hs]
    rfl
  · cases hkind.symm.trans hother
  · cases hkind.symm.trans hother
  · rcases hother with hother | hother <;> cases hkind.symm.trans hother
  · cases hkind.symm.trans hother
  · rw [hkind] at hother
    exact absurd hother (by decide)

/-- **A popup is a new page**: it is neither the root page nor the page of its action. -/
theorem popup_new (h : IsLog log) (ha : a ∈ log) {page : String} (hpage : page ∈ a.popups) :
    page ≠ rootAlias ∧ page ≠ a.page := by
  have hkind : a.kind ≠ .openPage := fun hkind => by
    rw [popups_of_opened (h.recorded a ha) hkind] at hpage
    cases hpage
  have hintroduces := mem_introduces_of_mem_popups hpage
  obtain ⟨before, after, hlog⟩ := List.append_of_mem ha
  obtain ⟨i, hi⟩ : ∃ i, log[i]? = some a := List.mem_iff_getElem?.mp ha
  constructor
  · rintro rfl
    -- the root page is opened by the first action, and nothing is introduced twice
    cases hfirst : log with
    | nil =>
      rw [hfirst] at ha
      cases ha
    | cons first rest =>
      have hroot : first.page = rootAlias := h.root first (by rw [hfirst]; rfl)
      have hopens : first.kind = .openPage := by
        by_contra hne
        have hempty : log = [] ++ first :: rest := hfirst
        obtain ⟨b, hb, -⟩ := h.earlier hempty hne
        cases hb
      have hmem : rootAlias ∈ first.introduces :=
        List.mem_append_left _ (by simp [hopens, hroot])
      have heq := h.introduces_inj ha (hfirst ▸ List.mem_cons_self) hintroduces hmem
      exact hkind (heq ▸ hopens)
  · rintro rfl
    -- the page of the action is introduced in front of it, and its popup by itself
    obtain ⟨j, hj, v, hv, hpage⟩ := h.inScope.earlier i a.use (use_getElem? hi)
      (by simpa [Action.use] using hkind)
    exact absurd (h.inScope.place_unique (use_getElem? hi) hv hintroduces hpage) (by omega)

end IsLog

/-! ### The plan of a log -/

theorem planFrom_cons (root : Option String) (handlers : ℕ) (a : Action) (rest : List Action) :
    planFrom root handlers (a :: rest) = (statementsOf root handlers a).1 ++
      planFrom root (statementsOf root handlers a).2 rest := rfl

/-- Each statement of a plan is one of some action. -/
theorem exists_of_mem_planFrom {st : Statement} (h : st ∈ planFrom root handlers log) :
    ∃ a ∈ log, ∃ n, st ∈ (statementsOf root n a).1 := by
  induction log generalizing handlers with
  | nil => cases h
  | cons a rest ih =>
    rw [planFrom_cons, List.mem_append] at h
    rcases h with h | h
    · exact ⟨a, List.mem_cons_self, handlers, h⟩
    · obtain ⟨b, hb, hst⟩ := ih h
      exact ⟨b, List.mem_cons_of_mem _ hb, hst⟩

theorem isPlain_plan (h : IsLog log) : ∀ st ∈ plan root log, st.IsPlain := by
  intro st hst
  obtain ⟨a, ha, n, hst⟩ := exists_of_mem_planFrom hst
  exact (carries_statementsOf (h.recorded a ha) root n).isPlain (h.recorded a ha) st hst

theorem isFresh_plan (h : IsLog log) : ∀ st ∈ plan (some rootAlias) log, st.IsFresh := by
  intro st hst
  obtain ⟨a, ha, n, hst⟩ := exists_of_mem_planFrom hst
  exact (carries_statementsOf (h.recorded a ha) _ n).isFresh (h.recorded a ha)
    (fun _ hpage => h.popup_new ha hpage) st hst

/-- **The plan is scoped if the actions are**, by what they call and declare. -/
theorem planScoped_planFrom_iff (hrecorded : ∀ a ∈ log, a.IsRecorded)
    (hnew : ∀ a ∈ log, a.page ∉ a.popups) (hroot : ∀ page ∈ root, page ∈ known) :
    PlanScoped known (planFrom root handlers log) ↔
      ScopedFrom Action.calls Action.declares known log := by
  induction log generalizing handlers known with
  | nil => exact Iff.rfl
  | cons a rest ih =>
    have ha := hrecorded a List.mem_cons_self
    have hcarries := carries_statementsOf ha root handlers
    have hrest : PlanScoped (known ++ (statementsOf root handlers a).1.flatMap Statement.pages)
          (planFrom root (statementsOf root handlers a).2 rest) ↔
        ScopedFrom Action.calls Action.declares
          (known ++ (statementsOf root handlers a).1.flatMap Statement.pages) rest :=
      ih (fun b hb => hrecorded b (List.mem_cons_of_mem _ hb))
      (fun b hb => hnew b (List.mem_cons_of_mem _ hb))
      (fun page hpage => List.mem_append_left _ (hroot page hpage))
    rw [planFrom_cons, PlanScoped, scopedFrom_append, ← PlanScoped, hrest, ScopedFrom,
      hcarries.planScoped_iff ha hroot (hnew a List.mem_cons_self)]
    refine and_congr_right fun _ => scopedFrom_congr fun _ _ page _ => ?_
    exact hcarries.mem_pages_iff ha hroot page

/-- **Nothing is done on the popups of a press of no key**, other than pressing no key again. -/
def SparesLostPopups (log : List Action) : Prop :=
  ∀ a ∈ log, a.IsEmptyPress → ∀ page ∈ a.popups, ∀ b ∈ log, b.page = page →
    b.IsEmptyPress ∧ b.signal? .dialog = none

instance (log : List Action) : Decidable (SparesLostPopups log) :=
  inferInstanceAs (Decidable (∀ a ∈ log, a.IsEmptyPress → ∀ page ∈ a.popups, ∀ b ∈ log,
    b.page = page → b.IsEmptyPress ∧ b.signal? .dialog = none))

/-- **The popups of a press of no key are lost**: no action declares them. -/
theorem IsLog.not_mem_declares (h : IsLog log) {b : Action} {page : String} (ha : a ∈ log)
    (hempty : a.IsEmptyPress) (hpage : page ∈ a.popups) (hb : b ∈ log) : page ∉ b.declares := by
  intro hdeclares
  rw [Action.declares] at hdeclares
  split at hdeclares
  · cases hdeclares
  · next hnot =>
    exact hnot (h.introduces_inj hb ha hdeclares (mem_introduces_of_mem_popups hpage) ▸ hempty)

/-- No page of a log is both opened and the popup of a press of no key. -/
theorem IsLog.kind_ne_openPage (h : IsLog log) {b : Action} (ha : a ∈ log)
    (hempty : a.IsEmptyPress) (hb : b ∈ log) (hpage : b.page ∈ a.popups) : b.kind ≠ .openPage := by
  intro hkind
  have hmem : b.page ∈ b.introduces := List.mem_append_left _ (by simp [hkind])
  have heq := h.introduces_inj ha hb (mem_introduces_of_mem_popups hpage) hmem
  cases (heq ▸ hkind).symm.trans hempty.1

/-- A page that is introduced is declared, or is the popup of a press of no key. -/
theorem mem_declares_or_mem_popups {page : String} (h : page ∈ a.introduces) :
    page ∈ a.declares ∨ (a.IsEmptyPress ∧ page ∈ a.popups) := by
  rw [Action.declares]
  split
  · next hempty =>
    rcases List.mem_append.mp h with hopened | hpopup
    · rw [if_neg fun hkind => by cases hkind.symm.trans hempty.1] at hopened
      cases hopened
    · exact Or.inr ⟨hempty, hpopup⟩
  · exact Or.inl h

/-- **The plan of a log is scoped exactly if nothing is done on the popups of a press of no key**,
which are not declared. -/
theorem planScoped_iff (h : IsLog log) (hroot : log ≠ [] → root = some rootAlias) :
    PlanScoped root.toList (plan root log) ↔ SparesLostPopups log := by
  rw [plan, planScoped_planFrom_iff h.recorded (fun a ha hmem => (h.popup_new ha hmem).2 rfl)
    (fun page hpage => Option.mem_toList.mpr hpage), scopedFrom_iff]
  constructor
  · rintro hscoped a ha hempty page hpage b hb rfl
    by_contra hcalls
    obtain ⟨before, after, hlog⟩ := List.append_of_mem hb
    have hcall : b.page ∈ b.calls := by
      rw [Action.calls, if_neg]
      · exact List.mem_cons_self
      · exact fun hor => hor.elim (h.kind_ne_openPage ha hempty hb hpage) hcalls
    -- the page would be known as the root page, or from an action in front
    rcases List.mem_append.mp (hscoped before b after hlog b.page hcall) with hknown | hknown
    · rw [hroot (List.ne_nil_of_mem ha), Option.toList_some, List.mem_singleton] at hknown
      exact (h.popup_new ha hpage).1 hknown
    · obtain ⟨c, hc, hdeclares⟩ := List.mem_flatMap.mp hknown
      have hcmem : c ∈ log := hlog ▸ List.mem_append_left _ hc
      exact h.not_mem_declares ha hempty hpage hcmem hdeclares
  · intro hspares before b after hlog page hcall
    rw [Action.calls] at hcall
    split at hcall
    · cases hcall
    · next hcalls =>
      obtain rfl := List.mem_singleton.mp hcall
      rw [not_or] at hcalls
      obtain ⟨c, hc, hpage⟩ := h.earlier hlog hcalls.1
      refine List.mem_append_right _ (List.mem_flatMap.mpr ⟨c, hc, ?_⟩)
      rcases mem_declares_or_mem_popups hpage with hdeclares | ⟨hempty, hpopup⟩
      · exact hdeclares
      · have hcmem : c ∈ log := hlog ▸ List.mem_append_left _ hc
        have hbmem : b ∈ log := hlog ▸ List.mem_append_right _ List.mem_cons_self
        exact absurd (hspares c hcmem hempty b.page hpopup b hbmem rfl) hcalls.2

/-! ### Nothing twice -/

theorem count_vars_planFrom_le (hrecorded : ∀ a ∈ log, a.IsRecorded) (rename : String → String)
    (name : String) :
    ((planFrom root handlers log).flatMap (Statement.vars rename)).count name ≤
      (log.flatMap Action.introduces).count name +
        ((log.flatMap Action.downloads).map rename).count name := by
  induction log generalizing handlers with
  | nil => exact Nat.zero_le _
  | cons a rest ih =>
    have ha := hrecorded a List.mem_cons_self
    have hhere := (carries_statementsOf ha root handlers).count_vars_le ha rename name
    have hlater : ((planFrom root (statementsOf root handlers a).2 rest).flatMap
        (Statement.vars rename)).count name ≤ (rest.flatMap Action.introduces).count name +
          ((rest.flatMap Action.downloads).map rename).count name :=
      ih fun b hb => hrecorded b (List.mem_cons_of_mem _ hb)
    simp only [planFrom_cons, List.flatMap_append, List.flatMap_cons, List.map_append,
      List.count_append]
    omega

/-- What a log introduces goes by the names of pages. -/
theorem isPageName_of_mem_introduces (ha : a.IsRecorded) {page : String}
    (hpage : page ∈ a.introduces) : isPageName page = true := by
  rcases List.mem_append.mp hpage with hopened | hpopup
  · split at hopened
    · exact List.mem_singleton.mp hopened ▸ ha.page
    · cases hopened
  · exact isPageName_of_mem_popups ha hpopup

/-- **A plan declares nothing twice.** -/
theorem nodup_vars_plan (h : IsLog log) (hroot : log ≠ [] → root = some rootAlias)
    {rename : String → String}
    (hnamed : ∀ name, isOver "download" name = true → isOver "download" (rename name) = true)
    (hrenamed : ∀ m n, rename (numbered "download" m) = rename (numbered "download" n) → m = n) :
    (root.toList ++ (plan root log).flatMap (Statement.vars rename)).Nodup := by
  have hdownloads : ((log.flatMap Action.downloads).map rename).Nodup := by
    obtain ⟨n, hn⟩ := h.downloads
    rw [hn, firstNames, List.map_map]
    exact List.nodup_range.map fun i j hij => hrenamed i j hij
  have hintroduces : (log.flatMap Action.introduces).Nodup := by
    rw [← introduced_map_use]
    exact h.inScope.once
  -- a name is that of a page or of a download, and not both
  have hdisjoint : ∀ name ∈ log.flatMap Action.introduces,
      name ∉ (log.flatMap Action.downloads).map rename := by
    intro name hname hdownload
    obtain ⟨a, ha, hname⟩ := List.mem_flatMap.mp hname
    obtain ⟨download, hmem, rfl⟩ := List.mem_map.mp hdownload
    obtain ⟨b, hb, hmem⟩ := List.mem_flatMap.mp hmem
    have hover : isOver "download" download = true := isOver_of_mem_downloads (h.recorded b hb) hmem
    have hpage := isPageName_of_mem_introduces (h.recorded a ha) hname
    rw [not_isPageName_of_isOver_download (hnamed download hover)] at hpage
    cases hpage
  have hplan : ((plan root log).flatMap (Statement.vars rename)).Nodup := by
    rw [List.nodup_iff_count_le_one]
    intro name
    have hle : ((plan root log).flatMap (Statement.vars rename)).count name ≤
        (log.flatMap Action.introduces).count name +
          ((log.flatMap Action.downloads).map rename).count name :=
      count_vars_planFrom_le h.recorded rename name
    have hi := List.nodup_iff_count_le_one.mp hintroduces name
    have hd := List.nodup_iff_count_le_one.mp hdownloads name
    by_cases hmem : name ∈ log.flatMap Action.introduces
    · rw [List.count_eq_zero.mpr (hdisjoint name hmem), Nat.add_zero] at hle
      exact Nat.le_trans hle hi
    · rw [List.count_eq_zero.mpr hmem, Nat.zero_add] at hle
      exact Nat.le_trans hle hd
  rcases eq_or_ne log [] with rfl | hne
  · cases root <;> simp [plan, planFrom]
  · obtain rfl := hroot hne
    refine List.nodup_append.mpr ⟨by simp, hplan, fun name hname other hother heq => ?_⟩
    obtain rfl := List.mem_singleton.mp hname
    obtain ⟨st, hst, hvar⟩ := List.mem_flatMap.mp hother
    -- no statement declares the root page once more
    rw [← heq, (isPlain_plan h st hst).mem_vars_iff hnamed (by decide)] at hvar
    exact (isFresh_plan h st hst rootAlias hvar).1 rfl

/-- **The handlers of dialogs are numbered** one after the other. -/
theorem pairwise_dialogs_planFrom (hrecorded : ∀ a ∈ log, a.IsRecorded) :
    ((planFrom root handlers log).filterMap Statement.dialog?).Pairwise (·.2 < ·.2) ∧
      ∀ d ∈ (planFrom root handlers log).filterMap Statement.dialog?, handlers < d.2 := by
  induction log generalizing handlers with
  | nil => exact ⟨.nil, by simp [planFrom]⟩
  | cons a rest ih =>
    have ha := hrecorded a List.mem_cons_self
    have hrest : ((planFrom root (statementsOf root handlers a).2 rest).filterMap
          Statement.dialog?).Pairwise (·.2 < ·.2) ∧
        ∀ d ∈ (planFrom root (statementsOf root handlers a).2 rest).filterMap Statement.dialog?,
          (statementsOf root handlers a).2 < d.2 :=
      ih fun b hb => hrecorded b (List.mem_cons_of_mem _ hb)
    rw [planFrom_cons, List.filterMap_append]
    rcases (carries_statementsOf ha root handlers).dialogs with ⟨hnone, hsame⟩ | ⟨hone, hnext⟩
    · rw [hnone, List.nil_append]
      rw [hsame] at hrest ⊢
      exact hrest
    · rw [hone, List.singleton_append]
      rw [hnext] at hrest ⊢
      refine ⟨List.pairwise_cons.mpr ⟨hrest.2, hrest.1⟩, fun d hd => ?_⟩
      rcases List.mem_cons.mp hd with rfl | hd
      · exact Nat.lt_succ_self handlers
      · exact Nat.lt_of_succ_lt (hrest.2 d hd)

/-- **A plan defines no handler twice**, if handlers go by their numbers. -/
theorem nodup_handlers_plan (h : IsLog log) {handler : String → ℕ → Option String}
    (hhandlers : ∀ page other m n name, isPageName page = true → isPageName other = true →
      handler page m = some name → handler other n = some name → m = n) :
    ((plan root log).filterMap fun st => st.dialog?.bind fun d => handler d.1 d.2).Nodup := by
  have hpages : ∀ d ∈ (plan root log).filterMap Statement.dialog?, isPageName d.1 = true := by
    intro d hd
    obtain ⟨st, hst, hdialog⟩ := List.mem_filterMap.mp hd
    have hplain := isPlain_plan h st hst
    cases st <;> simp only [Statement.dialog?, reduceCtorEq, Option.some.injEq] at hdialog
    rw [← hdialog]
    exact hplain
  have hnumbers : ((plan root log).filterMap Statement.dialog?).Pairwise (·.2 < ·.2) :=
    (pairwise_dialogs_planFrom h.recorded).1
  rw [← List.filterMap_filterMap, List.Nodup, List.pairwise_filterMap]
  refine hnumbers.imp_of_mem fun hd he hlt => ?_
  rintro name hname other hother rfl
  have heq := hhandlers _ _ _ _ _ (hpages _ hd) (hpages _ he) hname hother
  omega

/-! ### The programs of a log -/

variable {l : Language} {rename : String → String} {handler : String → ℕ → Option String}
  {aliases : AliasTable}

/-- **A program of a log declares nothing twice.** -/
theorem Language.Reads.declaredOnce (hreads : l.Reads rename handler) (h : IsLog log)
    (hroot : IsRoot aliases.root) (hlog : log ≠ [] → aliases.root = some rootAlias) :
    DeclaredOnce (l.lines log aliases) := by
  rw [hreads.declaredOnce_iff hroot (isPlain_plan h)]
  exact ⟨nodup_vars_plan h hlog hreads.named hreads.renamed,
    nodup_handlers_plan h hreads.handlers⟩

/-- **A program of a log is properly scoped exactly if nothing is done on the popups of a press of
no key.** -/
theorem Language.Reads.properlyScoped_lines_iff (hreads : l.Reads rename handler) (h : IsLog log)
    (hroot : IsRoot aliases.root) (hlog : log ≠ [] → aliases.root = some rootAlias) :
    ProperlyScoped l.bodyIndent.length (l.lines log aliases) ↔ SparesLostPopups log := by
  have hfresh : ∀ st ∈ plan aliases.root log, st.IsFresh := by
    rcases eq_or_ne log [] with rfl | hne
    · intro st hst
      cases hst
    · rw [hlog hne]
      exact isFresh_plan h
  rw [hreads.properlyScoped_iff hroot (isPlain_plan h) hfresh, planScoped_iff h hlog]

end Scribe.Program
