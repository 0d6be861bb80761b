import Scribe.Proofs.Coalescer.Course
import Scribe.Proofs.Coalescer.Requests
import Scribe.Proofs.Coalescer.Stock
import Mathlib.Algebra.GroupWithZero.Nat

/-!
# A request, turn by turn

To serve a request a coalescer goes round in loops. What is due is settled as long as anything is
due; each time the backlog is worked off behind it, as long as nothing is awaited; and that takes up
candidates, which may open the next action. A signal that was awaited has the backlog worked off,
too, from within. None of these loops counts down to anything, and the state that it starts from may
be any, also one that no requests lead to.

Here a request is served turn by turn. **The work** on it (`Scribe.Coalescer.Work`) is the coalescer
as it stands, the loops that have been entered, the innermost first, and what has been yielded so
far. A turn (`Scribe.Coalescer.Work.turn`) goes once round the innermost loop, and looks at the
backlog and the open action as they are just then. `Scribe.Coalescer.Work.Turn` lists what a turn
can be, and two things follow for each of them:

* the work becomes less (`Scribe.Coalescer.Work.Turn.load_lt`). A candidate that waits weighs more
  than an open action, since it may become one, and an open action more than a loop, since it may
  lead to one. Only a candidate that a request feeds may come to wait, and so it weighs most: while
  the backlog is worked off nothing is awaited, and nothing is put back;
* nothing is committed that was not there (`Scribe.Coalescer.Work.Turn.stock`).

So the work on a request comes to its end in a number of turns that is known beforehand, it ends
with the answer of `Scribe.Coalescer.serve`, and the actions that it commits are counted
(`Scribe.Coalescer.serve_ends`).
-/

namespace Scribe.Coalescer

/-! ### The work on a request -/

section

variable {τ : Type}

/-- **What is being done** on the way to an answer: a loop that has been entered, or a candidate
that is still to be dealt with. -/
inductive Duty (τ : Type) where
  /-- A candidate is taken up, or put behind what waits. -/
  | accept (c : Candidate) (now : τ)
  /-- Open actions are settled as long as they are due. -/
  | expire (now : τ)
  /-- The backlog is worked off as long as nothing is awaited. -/
  | drain (now : τ)
  /-- What is held is settled, as long as anything waits behind it. -/
  | settle
  deriving Repr, DecidableEq

/-- The bare action of a candidate that is still to be dealt with. -/
def Duty.bare? : Duty τ → Option Action
  | accept c _ => c.bare?
  | expire _ | drain _ | settle => none

/-- How much a duty weighs: a candidate may still come to wait. -/
def Duty.weight : Duty τ → ℕ
  | accept .. => 4
  | expire _ | drain _ | settle => 1

theorem Duty.weight_pos (duty : Duty τ) : 0 < duty.weight := by
  cases duty <;> exact Nat.succ_pos _

/-- **The work** on a request. -/
structure Work (τ : Type) where
  /-- The coalescer as it stands. -/
  coalescer : Coalescer τ
  /-- What is being done, the innermost first. -/
  duties : List (Duty τ)
  /-- What has been yielded. -/
  yielded : Yield := {}
  deriving Repr, DecidableEq

namespace Work

/-- The work goes on after a result, with other duties; a refusal ends it. -/
def resume (duties : List (Duty τ)) (yielded : Yield) (r : Coalescer τ × Yield) : Work τ :=
  ⟨r.1, if r.2.refused then [] else duties, yielded ++ r.2⟩

section

variable [Add τ] [LE τ] [DecidableLE τ]

/-- **A candidate is taken up** in the course of the work. If it is the signal that was awaited, the
backlog is worked off next. -/
def takeUp (m : Coalescer τ) (c : Candidate) (now : τ) (duties : List (Duty τ)) (yielded : Yield) :
    Work τ :=
  resume (if m.releases c now then .drain now :: duties else duties) yielded (m.absorb c now)

/-- **A turn** of the innermost loop. -/
def turn : Work τ → Work τ
  | ⟨m, [], yielded⟩ => ⟨m, [], yielded⟩
  | ⟨m, .accept c now :: duties, yielded⟩ =>
    if m.isAwaiting && !isSignal c then ⟨{ m with backlog := m.backlog ++ [c] }, duties, yielded⟩
    else takeUp m c now duties yielded
  | ⟨m, .expire now :: duties, yielded⟩ =>
    match m.opened with
    | none => ⟨m, duties, yielded⟩
    | some o =>
      if o.deadline ≤ now then
        ⟨{ m with opened := none }, .drain now :: .expire now :: duties, yielded ++ o.settle⟩
      else ⟨m, duties, yielded⟩
  | ⟨m, .drain now :: duties, yielded⟩ =>
    match m.backlog with
    | [] => ⟨m, duties, yielded⟩
    | c :: rest =>
      if m.isAwaiting then ⟨m, duties, yielded⟩
      else takeUp { m with backlog := rest } c now (.drain now :: duties) yielded
  | ⟨m, .settle :: duties, yielded⟩ =>
    match m.backlog with
    | [] => ⟨m.settleHeld.1, duties, yielded ++ m.settleHeld.2⟩
    | c :: rest =>
      takeUp { m.settleHeld.1 with backlog := rest } c m.lastNow (.settle :: duties)
        (yielded ++ m.settleHeld.2)

/-- The work after so many turns. -/
def after (w : Work τ) (n : ℕ) : Work τ :=
  turn^[n] w

end

/-- **How much there is to do.** -/
def load (w : Work τ) : ℕ :=
  3 * w.coalescer.backlog.length + 2 * w.coalescer.opened.isSome.toNat +
    (w.duties.map Duty.weight).sum

/-- **What is committed, what there is to commit, and what is still to be dealt with.** -/
def stock (w : Work τ) : List Action :=
  w.yielded.committed.map Action.bare ++ w.coalescer.stock ++ w.duties.filterMap Duty.bare?

theorem load_mk (m : Coalescer τ) (duties : List (Duty τ)) (yielded : Yield) :
    (⟨m, duties, yielded⟩ : Work τ).load = 3 * m.backlog.length +
      2 * m.opened.isSome.toNat + (duties.map Duty.weight).sum :=
  rfl

theorem stock_mk (m : Coalescer τ) (duties : List (Duty τ)) (yielded : Yield) :
    (⟨m, duties, yielded⟩ : Work τ).stock =
      yielded.committed.map Action.bare ++ m.stock ++ duties.filterMap Duty.bare? :=
  rfl

/-- How often an action is in the stock. -/
theorem count_stock (a : Action) (w : Work τ) :
    w.stock.count a = (w.yielded.committed.map Action.bare).count a +
      w.coalescer.heldStock.count a + (w.coalescer.backlog.filterMap Candidate.bare?).count a +
        (w.duties.filterMap Duty.bare?).count a := by
  simp only [stock, Coalescer.stock, List.count_append]
  omega

/-- A load of nothing leaves nothing to do. -/
theorem duties_of_load {w : Work τ} (h : w.load = 0) : w.duties = [] := by
  obtain ⟨m, duties, yielded⟩ := w
  cases duties with
  | nil => rfl
  | cons duty duties =>
    have hpos := duty.weight_pos
    simp only [load_mk, List.map_cons, List.sum_cons] at h
    omega

theorem load_resume_le (duties : List (Duty τ)) (yielded : Yield) (r : Coalescer τ × Yield) :
    (resume duties yielded r).load ≤ 3 * r.1.backlog.length + 2 * r.1.opened.isSome.toNat +
      (duties.map Duty.weight).sum := by
  rw [resume, load]
  dsimp only
  split
  · rw [List.map_nil, List.sum_nil]
    omega
  · exact Nat.le_refl _

theorem resume_of_served {r : Coalescer τ × Yield} (hr : r.2.refused = false)
    (duties : List (Duty τ)) (yielded : Yield) :
    resume duties yielded r = ⟨r.1, duties, yielded ++ r.2⟩ := by
  rw [resume, if_neg (Bool.eq_false_iff.mp hr)]

theorem resume_of_refused {r : Coalescer τ × Yield} (hr : r.2.refused = true)
    (duties : List (Duty τ)) (yielded : Yield) :
    resume duties yielded r = ⟨r.1, [], yielded ++ r.2⟩ := by
  rw [resume, if_pos hr]

theorem resume_nothing (m : Coalescer τ) (duties : List (Duty τ)) (yielded : Yield) :
    resume duties yielded (m, {}) = ⟨m, duties, yielded⟩ := by
  rw [resume_of_served rfl]
  exact congrArg (Work.mk m duties) yielded.append_ofEntries_nil

/-- Where nothing else is to be done, a result is the end. -/
theorem resume_last (yielded : Yield) (r : Coalescer τ × Yield) :
    resume [] yielded r = ⟨r.1, [], yielded ++ r.2⟩ := by
  rw [resume, ite_self]

/-- One result after another, unless the first is a refusal. -/
theorem resume_append {duties : List (Duty τ)} {yielded first : Yield} {r : Coalescer τ × Yield}
    (hr : first.refused = false) :
    resume duties (yielded ++ first) r = resume duties yielded (r.1, first ++ r.2) := by
  rw [resume, resume, Yield.append_assoc, Yield.refused_append, hr, Bool.false_or]

end Work

/-- Only a signal is taken up while a signal is awaited. -/
theorem fits_of_not_waits {m : Coalescer τ} {c : Candidate}
    (h : ¬(m.isAwaiting && !isSignal c) = true) :
    m.isAwaiting = false ∨ ∃ s, c = .signal s := by
  cases c with
  | signal s => exact Or.inr ⟨s, rfl⟩
  | action c => exact Or.inl (by simpa [isSignal] using h)
  | foreign => exact Or.inl (by simpa [isSignal] using h)

end

namespace Work

section

variable {τ : Type} [Add τ] [LE τ] [DecidableLE τ] {m : Coalescer τ} {now : τ}

/-! ### What a turn can be -/

/-- **What a turn can be.** -/
inductive Turn : Work τ → Work τ → Prop
  /-- A loop is left. -/
  | leave {m : Coalescer τ} {duty : Duty τ} {duties : List (Duty τ)} {yielded : Yield}
      (nothing : duty.bare? = none) :
      Turn ⟨m, duty :: duties, yielded⟩ ⟨m, duties, yielded⟩
  /-- A candidate waits behind all that waits already. -/
  | wait {m : Coalescer τ} {c : Candidate} {now : τ} {duties : List (Duty τ)} {yielded : Yield} :
      Turn ⟨m, .accept c now :: duties, yielded⟩
        ⟨{ m with backlog := m.backlog ++ [c] }, duties, yielded⟩
  /-- A candidate is taken up; while a signal is awaited, only a signal is. -/
  | accept {m : Coalescer τ} {c : Candidate} {now : τ} {duties : List (Duty τ)} {yielded : Yield}
      (fits : m.isAwaiting = false ∨ ∃ s, c = .signal s) :
      Turn ⟨m, .accept c now :: duties, yielded⟩ (takeUp m c now duties yielded)
  /-- An open action is settled, and the backlog is to be worked off. -/
  | expire {m : Coalescer τ} {o : OpenAction τ} {now : τ} {duties : List (Duty τ)} {yielded : Yield}
      (opened : m.opened = some o) :
      Turn ⟨m, .expire now :: duties, yielded⟩
        ⟨{ m with opened := none }, .drain now :: .expire now :: duties, yielded ++ o.settle⟩
  /-- The first that waits is taken up, since nothing is awaited. -/
  | drain {m : Coalescer τ} {c : Candidate} {rest : List Candidate} {now : τ}
      {duties : List (Duty τ)} {yielded : Yield} (backlog : m.backlog = c :: rest)
      (free : m.isAwaiting = false) :
      Turn ⟨m, .drain now :: duties, yielded⟩
        (takeUp { m with backlog := rest } c now (.drain now :: duties) yielded)
  /-- What is held is settled, and nothing waits behind it. -/
  | last {m : Coalescer τ} {duties : List (Duty τ)} {yielded : Yield} :
      Turn ⟨m, .settle :: duties, yielded⟩
        ⟨{ m with fill := none, opened := none }, duties, yielded ++ m.settleHeld.2⟩
  /-- What is held is settled, and the first that waits is taken up. -/
  | settle {m : Coalescer τ} {c : Candidate} {rest : List Candidate} {duties : List (Duty τ)}
      {yielded : Yield} (backlog : m.backlog = c :: rest) :
      Turn ⟨m, .settle :: duties, yielded⟩
        (takeUp { m with fill := none, opened := none, backlog := rest } c m.lastNow
          (.settle :: duties) (yielded ++ m.settleHeld.2))

theorem turn_turn {w : Work τ} (h : w.duties ≠ []) : Turn w w.turn := by
  obtain ⟨m, duties, yielded⟩ := w
  cases duties with
  | nil => exact absurd rfl h
  | cons duty duties =>
    cases duty with
    | accept c now =>
      rw [turn]
      split
      · exact .wait
      · next hnot => exact .accept (fits_of_not_waits hnot)
    | expire now =>
      rw [turn]
      split
      · exact .leave rfl
      · next o ho =>
        split
        · exact .expire ho
        · exact .leave rfl
    | drain now =>
      rw [turn]
      split
      · exact .leave rfl
      · next c rest hb =>
        split
        · exact .leave rfl
        · next hfree => exact .drain hb (Bool.eq_false_iff.mpr hfree)
    | settle =>
      rw [turn]
      split
      · exact .last
      · next c rest hb => exact .settle hb

theorem turn_of_done {w : Work τ} (h : w.duties = []) : w.turn = w := by
  obtain ⟨m, duties, yielded⟩ := w
  obtain rfl : duties = [] := h
  rfl

theorem after_of_done {w : Work τ} (h : w.duties = []) (n : ℕ) : w.after n = w :=
  Function.iterate_fixed (turn_of_done h) n

/-! ### The work becomes less -/

/-- As long as nothing is awaited, a candidate that is taken up does not come to wait. -/
theorem load_takeUp_of_free (h : m.isAwaiting = false) (c : Candidate) (now : τ)
    (duties : List (Duty τ)) (yielded : Yield) :
    (takeUp m c now duties yielded).load ≤
      3 * m.backlog.length + 2 + (duties.map Duty.weight).sum := by
  have hle := load_resume_le duties yielded (m.absorb c now)
  have hopened := Bool.toNat_le (m.absorb c now).1.opened.isSome
  rw [absorb_backlog h] at hle
  rw [takeUp, releases_of_free h, if_neg Bool.false_ne_true]
  omega

/-- A signal that is taken up may come to wait. -/
theorem load_takeUp_signal (m : Coalescer τ) (s : SignalCandidate) (now : τ)
    (duties : List (Duty τ)) (yielded : Yield) :
    (takeUp m (.signal s) now duties yielded).load ≤
      3 * m.backlog.length + 3 + 2 * m.opened.isSome.toNat + (duties.map Duty.weight).sum := by
  have hle := load_resume_le (if m.releases (.signal s) now then .drain now :: duties else duties)
    yielded (m.absorbSignal s now)
  have hresolves := m.resolves_absorbSignal s now
  rw [takeUp, absorb]
  refine Nat.le_trans hle ?_
  generalize m.releases (.signal s) now = released, m.absorbSignal s now = r at hresolves
  cases hresolves with
  | waits =>
    simp only [Bool.false_eq_true, if_false, List.length_append, List.length_singleton]
    omega
  | alone =>
    simp only [Bool.false_eq_true, if_false, settleHeld, Option.isSome_none, Bool.toNat_false]
    omega
  | received ho =>
    simp only [Bool.false_eq_true, if_false, ho, Option.isSome_some, Bool.toNat_true]
    omega
  | fulfilled ho =>
    -- the open action makes up for the loop that is entered
    simp only [if_true, settleHeld, ho, Option.isSome_none, Option.isSome_some, Bool.toNat_false,
      Bool.toNat_true, List.map_cons, List.sum_cons, Duty.weight]
    omega

/-- **A turn makes the work less.** -/
theorem Turn.load_lt {w v : Work τ} (h : Turn w v) : v.load < w.load := by
  cases h with
  | @leave m duty duties yielded =>
    have hpos := duty.weight_pos
    simp only [load_mk, List.map_cons, List.sum_cons]
    omega
  | wait =>
    simp only [load_mk, List.map_cons, List.sum_cons, Duty.weight, List.length_append,
      List.length_singleton]
    omega
  | @accept m c now duties yielded hfits =>
    simp only [load_mk, List.map_cons, List.sum_cons, Duty.weight]
    obtain hfree | ⟨s, rfl⟩ := hfits
    · have hle := load_takeUp_of_free hfree c now duties yielded
      omega
    · have hle := load_takeUp_signal m s now duties yielded
      omega
  | expire ho =>
    simp only [load_mk, List.map_cons, List.sum_cons, Duty.weight, ho, Option.isSome_none,
      Option.isSome_some, Bool.toNat_false, Bool.toNat_true]
    omega
  | @drain m c rest now duties yielded hb hfree =>
    have hle := load_takeUp_of_free (m := { m with backlog := rest }) hfree c now
      (.drain now :: duties) yielded
    simp only [load_mk, List.map_cons, List.sum_cons, Duty.weight, hb, List.length_cons] at hle ⊢
    omega
  | last =>
    simp only [load_mk, List.map_cons, List.sum_cons, Duty.weight, Option.isSome_none,
      Bool.toNat_false]
    omega
  | @settle m c rest duties yielded hb =>
    have hle := load_takeUp_of_free
      (m := { m with fill := none, opened := none, backlog := rest }) rfl c m.lastNow
      (.settle :: duties) (yielded ++ m.settleHeld.2)
    simp only [load_mk, List.map_cons, List.sum_cons, Duty.weight, hb, List.length_cons] at hle ⊢
    omega

/-- **The work comes to its end** in as many turns as it weighs. -/
theorem duties_after {w : Work τ} {n : ℕ} (h : w.load ≤ n) : (w.after n).duties = [] := by
  induction n generalizing w with
  | zero => exact duties_of_load (Nat.le_zero.mp h)
  | succ n ih =>
    by_cases hdone : w.duties = []
    · rw [after_of_done hdone]
      exact hdone
    · have hlt := (turn_turn hdone).load_lt
      exact ih (by omega)

/-! ### Nothing is committed that was not there -/

theorem filterMap_cons_toList {α β : Type} (f : α → Option β) (a : α) (l : List α) :
    (a :: l).filterMap f = (f a).toList ++ l.filterMap f := by
  rw [List.filterMap_cons]
  cases f a <;> rfl

/-- **A candidate that is taken up is accounted for**, as one that is still to be dealt with. -/
theorem stock_takeUp (m : Coalescer τ) (c : Candidate) (now : τ) (duties : List (Duty τ))
    (yielded : Yield) :
    (takeUp m c now duties yielded).stock.Subperm
      (⟨m, .accept c now :: duties, yielded⟩ : Work τ).stock := by
  have hduties : ((if (m.absorb c now).2.refused then [] else
      if m.releases c now then .drain now :: duties else duties).filterMap Duty.bare?).Subperm
        (duties.filterMap Duty.bare?) := by
    split
    · exact List.nil_subperm
    · split <;> exact List.Subperm.refl _
  have habsorb := ((List.subperm_append_left (yielded.committed.map Action.bare)).mpr
    (m.stock_absorb c now)).append hduties
  have hperm : List.Perm
      (yielded.committed.map Action.bare ++ (c.bare?.toList ++ m.stock) ++
        duties.filterMap Duty.bare?)
      (⟨m, .accept c now :: duties, yielded⟩ : Work τ).stock := by
    refine List.perm_iff_count.mpr fun a => ?_
    simp only [stock_mk, filterMap_cons_toList, Duty.bare?, List.count_append]
    omega
  rw [takeUp, resume, stock_mk, Yield.bare_append, List.append_assoc (yielded.committed.map _)]
  exact habsorb.trans hperm.subperm

/-- **A turn commits nothing that was not there**, and nothing twice. -/
theorem Turn.stock {w v : Work τ} (h : Turn w v) : v.stock.Subperm w.stock := by
  cases h with
  | leave hnone =>
    rw [stock_mk, stock_mk, List.filterMap_cons_none hnone]
  | wait =>
    refine List.Perm.subperm (List.perm_iff_count.mpr fun a => ?_)
    simp only [count_stock, heldStock, filterMap_cons_toList, List.filterMap_append,
      List.filterMap_nil, Duty.bare?, List.count_append, List.count_nil]
    omega
  | @accept m c now duties yielded => exact stock_takeUp m c now duties yielded
  | expire ho =>
    refine List.Perm.subperm (List.perm_iff_count.mpr fun a => ?_)
    simp only [count_stock, Yield.bare_append, bare_settle, heldStock, ho, filterMap_cons_toList,
      Duty.bare?, Option.map_some, Option.map_none, Option.toList_some, Option.toList_none,
      List.count_append, List.count_nil]
    omega
  | @drain m c rest now duties yielded hb =>
    refine (stock_takeUp _ c now _ yielded).trans (List.Perm.subperm ?_)
    refine List.perm_iff_count.mpr fun a => ?_
    simp only [count_stock, heldStock, hb, filterMap_cons_toList, Duty.bare?, List.count_append]
    omega
  | last =>
    refine List.Perm.subperm (List.perm_iff_count.mpr fun a => ?_)
    simp only [count_stock, Yield.bare_append, bare_settleHeld, heldStock, filterMap_cons_toList,
      Duty.bare?, Option.map_none, Option.toList_none, List.count_append, List.count_nil]
    omega
  | @settle m c rest duties yielded hb =>
    refine (stock_takeUp _ c m.lastNow _ _).trans (List.Perm.subperm ?_)
    refine List.perm_iff_count.mpr fun a => ?_
    simp only [count_stock, Yield.bare_append, bare_settleHeld, heldStock, hb,
      filterMap_cons_toList, Duty.bare?, Option.map_none, Option.toList_none, List.count_append,
      List.count_nil]
    omega

theorem stock_turn (w : Work τ) : w.turn.stock.Subperm w.stock := by
  by_cases hdone : w.duties = []
  · rw [turn_of_done hdone]
  · exact (turn_turn hdone).stock

/-- **No number of turns commits what was not there**, or anything twice. -/
theorem stock_after (w : Work τ) (n : ℕ) : (w.after n).stock.Subperm w.stock := by
  induction n generalizing w with
  | zero => exact List.Subperm.refl _
  | succ n ih => exact (ih w.turn).trans w.stock_turn

/-! ### Where the work leads -/

/-- Some number of turns leads from one to the other. -/
def LeadsTo (w v : Work τ) : Prop :=
  ∃ n, w.after n = v

namespace LeadsTo

variable {w v u : Work τ}

theorem refl (w : Work τ) : w.LeadsTo w :=
  ⟨0, rfl⟩

theorem trans (h : w.LeadsTo v) (h' : v.LeadsTo u) : w.LeadsTo u := by
  obtain ⟨n, rfl⟩ := h
  obtain ⟨k, rfl⟩ := h'
  exact ⟨k + n, Function.iterate_add_apply _ _ _ _⟩

theorem head (h : w.turn.LeadsTo v) : w.LeadsTo v := by
  obtain ⟨n, rfl⟩ := h
  exact ⟨n + 1, rfl⟩

/-- **Where the work leads, it ends**: as many turns as it weighs are enough. -/
theorem after (h : w.LeadsTo v) (hv : v.duties = []) {n : ℕ} (hn : w.load ≤ n) : w.after n = v := by
  obtain ⟨k, rfl⟩ := h
  have hsplit (i j : ℕ) (hij : i ≤ j) : w.after j = (w.after i).after (j - i) := by
    rw [Work.after, Work.after, Work.after, ← Function.iterate_add_apply, Nat.sub_add_cancel hij]
  obtain hle | hle := Nat.le_total n k
  · rw [hsplit n k hle, after_of_done (duties_after hn)]
  · rw [hsplit k n hle, after_of_done hv]

end LeadsTo

/-- **The backlog is worked off.** -/
theorem leadsTo_drain (m : Coalescer τ) (now : τ) (duties : List (Duty τ)) (yielded : Yield) :
    LeadsTo ⟨m, .drain now :: duties, yielded⟩ (resume duties yielded (m.drain now)) := by
  refine LeadsTo.head ?_
  induction hb : m.backlog generalizing m yielded with
  | nil =>
    have hdrain : m.drain now = (m, {}) := by rw [drain, hb, drainList, ← hb]
    rw [turn, hb, hdrain, resume_nothing]
    exact .refl _
  | cons c rest ih =>
    rw [turn, hb]
    dsimp only
    cases hm : m.isAwaiting with
    | true =>
      rw [if_pos rfl, drain_of_awaiting hm, resume_nothing]
      exact .refl _
    | false =>
      have hfree : ({ m with backlog := rest } : Coalescer τ).isAwaiting = false := hm
      have hbacklog := absorb_backlog hfree c now
      rw [if_neg Bool.false_ne_true, takeUp, releases_of_free hfree, if_neg Bool.false_ne_true,
        drain, hb, drainList, if_neg (Bool.eq_false_iff.mp hm)]
      dsimp only
      cases hr : ({ m with backlog := rest }.absorb c now).2.refused with
      | true =>
        rw [if_pos rfl, resume_of_refused hr, resume_of_refused hr]
        exact .refl _
      | false =>
        -- the loop goes on with the backlog that is left
        have hrest := ih ({ m with backlog := rest }.absorb c now).1
          (yielded ++ ({ m with backlog := rest }.absorb c now).2) hbacklog
        rw [drain, hbacklog, resume_append hr] at hrest
        rw [if_neg Bool.false_ne_true, resume_of_served hr]
        exact hrest.head

/-- An expiry ends with a refusal in the backlog. -/
theorem expire_of_refused {o : OpenAction τ} (ho : m.opened = some o) (hdue : o.deadline ≤ now)
    (hr : ({ m with opened := none }.drain now).2.refused = true) :
    expire now m = (({ m with opened := none }.drain now).1,
      o.settle ++ ({ m with opened := none }.drain now).2) := by
  rw [expire]
  split
  · next hnone => simp [ho] at hnone
  · next hsome =>
    obtain rfl := Option.some.inj (ho.symm.trans hsome)
    rw [if_pos hdue]
    exact if_pos hr

/-- **What is due is settled**, as long as anything is. -/
theorem leadsTo_expire (m : Coalescer τ) (now : τ) (duties : List (Duty τ)) (yielded : Yield) :
    LeadsTo ⟨m, .expire now :: duties, yielded⟩ (resume duties yielded (m.expire now)) := by
  refine LeadsTo.head ?_
  induction m using expire_induction now generalizing yielded with
  | still m hstill =>
    rw [expire_of_not_due hstill, resume_nothing, turn]
    cases ho : m.opened with
    | none => exact .refl _
    | some o =>
      dsimp only
      rw [if_neg (hstill o ho)]
      exact .refl _
  | due m o ho hdue ih =>
    rw [turn, ho]
    dsimp only
    rw [if_pos hdue]
    refine (leadsTo_drain _ now _ _).trans ?_
    cases hr : ({ m with opened := none }.drain now).2.refused with
    | true =>
      have hrefused : (o.settle ++ ({ m with opened := none }.drain now).2).refused = true := by
        rw [Yield.refused_append, hr, Bool.or_true]
      rw [resume_append (refused_settle o), expire_of_refused ho hdue hr,
        resume_of_refused hrefused, resume_of_refused hrefused]
      exact .refl _
    | false =>
      have hserved : (o.settle ++ ({ m with opened := none }.drain now).2).refused = false := by
        rw [Yield.refused_append, refused_settle, hr, Bool.false_or]
      rw [resume_of_served hr, expire_of_due ho hdue hr, Yield.append_assoc,
        ← resume_append hserved]
      exact (ih _).head

/-- **A candidate is taken up**, and the backlog is worked off if that released it. -/
theorem leadsTo_take (c : Candidate) (now : τ) (duties : List (Duty τ)) (yielded : Yield)
    (hfits : m.isAwaiting = false ∨ ∃ s, c = .signal s) :
    LeadsTo (takeUp m c now duties yielded) (resume duties yielded (m.take c now)) := by
  have hreleases : m.releases c now = (m.isAwaiting && !(m.absorb c now).1.isAwaiting) := by
    obtain hfree | ⟨s, rfl⟩ := hfits
    · rw [releases_of_free hfree, hfree, Bool.false_and]
    · exact (m.resolves_absorbSignal s now).released_eq
  rw [takeUp, take]
  dsimp only
  rw [← hreleases]
  cases hreleased : m.releases c now with
  | false => exact .refl _
  | true =>
    -- only a signal releases anything, and no signal is refused
    have hserved : (m.absorb c now).2.refused = false := by
      obtain hfree | ⟨s, rfl⟩ := hfits
      · rw [releases_of_free hfree] at hreleased
        cases hreleased
      · exact (m.resolves_absorbSignal s now).refused
    rw [if_pos rfl, if_pos rfl, resume_of_served hserved, ← resume_append hserved]
    exact leadsTo_drain _ now _ _

/-- **A candidate is dealt with.** -/
theorem leadsTo_accept (m : Coalescer τ) (c : Candidate) (now : τ) (duties : List (Duty τ))
    (yielded : Yield) :
    LeadsTo ⟨m, .accept c now :: duties, yielded⟩ (resume duties yielded
      (if m.isAwaiting && !isSignal c then ({ m with backlog := m.backlog ++ [c] }, {})
        else m.take c now)) := by
  refine LeadsTo.head ?_
  rw [turn]
  split
  · rw [resume_nothing]
    exact .refl _
  · next hnot => exact leadsTo_take c now duties yielded (fits_of_not_waits hnot)

/-- **Everything is settled.** -/
theorem leadsTo_settle (m : Coalescer τ) (duties : List (Duty τ)) (yielded : Yield) :
    LeadsTo ⟨m, .settle :: duties, yielded⟩ (resume duties yielded m.flush) := by
  refine LeadsTo.head ?_
  induction hb : m.backlog generalizing m yielded with
  | nil =>
    have hflush : m.flush = m.settleHeld := by rw [flush, hb, flushList, ← hb]
    rw [turn, hb, hflush, resume_of_served (refused_settleHeld m)]
    exact .refl _
  | cons c rest ih =>
    have hfree : ({ m.settleHeld.1 with backlog := rest } : Coalescer τ).isAwaiting = false := rfl
    have hbacklog := absorb_backlog hfree c m.lastNow
    have hflush : m.flush =
        let r := { m.settleHeld.1 with backlog := rest }.absorb c m.lastNow
        if r.2.refused then (r.1, m.settleHeld.2 ++ r.2)
        else (r.1.flush.1, m.settleHeld.2 ++ r.2 ++ r.1.flush.2) := by
      rw [flush, hb, flushList]
      dsimp only
      rw [flush, hbacklog]
      rfl
    rw [turn, hb]
    dsimp only
    rw [takeUp, releases_of_free hfree, if_neg Bool.false_ne_true,
      resume_append (refused_settleHeld m), hflush]
    dsimp only
    cases hr : ({ m.settleHeld.1 with backlog := rest }.absorb c m.lastNow).2.refused with
    | true =>
      have hrefused : (m.settleHeld.2 ++
          ({ m.settleHeld.1 with backlog := rest }.absorb c m.lastNow).2).refused = true := by
        rw [Yield.refused_append, hr, Bool.or_true]
      rw [if_pos rfl, resume_of_refused hrefused, resume_of_refused hrefused]
      exact .refl _
    | false =>
      have hserved : (m.settleHeld.2 ++
          ({ m.settleHeld.1 with backlog := rest }.absorb c m.lastNow).2).refused = false := by
        rw [Yield.refused_append, refused_settleHeld, hr, Bool.false_or]
      rw [if_neg Bool.false_ne_true, resume_of_served hserved, ← resume_append hserved]
      exact (ih _ _ hbacklog).head

end

/-! ### The end of a request -/

variable {τ : Type} [Add τ] [LinearOrder τ]

omit [Add τ] in
/-- **The work that a request sets off.** Time is told first, and then the candidate is dealt with,
if there is one. -/
def start (m : Coalescer τ) : Request τ → Work τ
  | .call c => ⟨{ m with lastNow := later m.lastNow c.now },
      .expire c.now :: (c.candidate?.map (Duty.accept · c.now)).toList, {}⟩
  | .flush => ⟨m, [.settle], {}⟩

omit [Add τ] in
theorem load_start_le (m : Coalescer τ) (r : Request τ) :
    (start m r).load ≤ 3 * m.backlog.length + 2 * m.opened.isSome.toNat + 5 := by
  cases r with
  | call c =>
    rw [start, load_mk]
    cases c.candidate? <;> simp [Duty.weight]
  | flush =>
    rw [start, load_mk]
    simp [Duty.weight]

omit [Add τ] in
theorem stock_start (m : Coalescer τ) (r : Request τ) :
    (start m r).stock = m.stock ++ (r.candidate?.bind Candidate.bare?).toList := by
  cases r with
  | call c =>
    rw [start, stock_mk, Request.candidate?]
    cases c.candidate? with
    | none => rfl
    | some d =>
      rw [Option.map_some, Option.toList_some, filterMap_cons_toList, filterMap_cons_toList,
        List.filterMap_nil, List.append_nil]
      rfl
  | flush => rfl

/-- The work that a candidate sets off leads to what is made of it. -/
theorem leadsTo_feed (m : Coalescer τ) (c : Candidate) (now : τ) :
    LeadsTo ⟨{ m with lastNow := later m.lastNow now }, [.expire now, .accept c now], {}⟩
      ⟨(m.feed c now).1, [], (m.feed c now).2⟩ := by
  refine (leadsTo_expire _ now _ _).trans ?_
  have htick : expire now { m with lastNow := later m.lastNow now } = m.tick now := rfl
  rw [htick, feed]
  dsimp only
  cases hr : (m.tick now).2.refused with
  | true =>
    rw [resume_of_refused hr, if_pos rfl]
    exact .refl _
  | false =>
    rw [resume_of_served hr, if_neg Bool.false_ne_true]
    refine (leadsTo_accept _ c now _ _).trans ?_
    rw [resume_last]
    split
    · have hyield : {} ++ (m.tick now).2 ++ ({} : Yield) = (m.tick now).2 :=
        (Yield.append_ofEntries_nil _).trans (Yield.ofEntries_nil_append _)
      dsimp only
      rw [hyield]
      exact .refl _
    · exact .refl _

/-- **The work that a request sets off leads to the answer.** -/
theorem leadsTo_serve (m : Coalescer τ) (r : Request τ) :
    (start m r).LeadsTo ⟨(m.serve r).1, [], (m.serve r).2⟩ := by
  have hyield (y : Yield) : ({} : Yield) ++ y = y := Yield.ofEntries_nil_append y
  cases r with
  | flush =>
    have hsettle := leadsTo_settle m [] {}
    rwa [resume_last, hyield] at hsettle
  | call c =>
    cases c with
    | action c now => exact leadsTo_feed m (.action c) now
    | signal s now => exact leadsTo_feed m (.signal s) now
    | tick now =>
      have hexpire := leadsTo_expire { m with lastNow := later m.lastNow now } now [] {}
      rwa [resume_last, hyield] at hexpire

end Work

/-- **Every request is served to its end, whatever the state.** Three turns for each candidate that
waits, two for an open action and five more are enough; the work then stands still, with the answer
to the request. At most one action is committed for each of the fill, the open action, what waits
and what is fed: bare, what is committed and what is there to commit afterwards is there to commit
before or fed, as often at least. -/
theorem serve_ends {τ : Type} [Add τ] [LinearOrder τ] (m : Coalescer τ) (r : Request τ)
    (spare : ℕ) :
    (Work.start m r).after (3 * m.backlog.length + 2 * m.opened.isSome.toNat + 5 + spare) =
        ⟨(m.serve r).1, [], (m.serve r).2⟩ ∧
      (m.serve r).2.committed.length ≤ m.fill.isSome.toNat + m.opened.isSome.toNat +
        m.backlog.length + r.candidate?.isSome.toNat ∧
      ((m.serve r).2.committed.map Action.bare ++ (m.serve r).1.stock).Subperm
        (m.stock ++ (r.candidate?.bind Candidate.bare?).toList) := by
  have hends := (Work.leadsTo_serve m r).after rfl
    (Nat.le_trans (Work.load_start_le m r) (Nat.le_add_right _ spare))
  have hstock := (Work.start m r).stock_after
    (3 * m.backlog.length + 2 * m.opened.isSome.toNat + 5 + spare)
  rw [hends, Work.stock_start, Work.stock_mk, List.filterMap_nil, List.append_nil] at hstock
  refine ⟨hends, ?_, hstock⟩
  have hlength := hstock.length_le
  have hthere := m.length_stock_le
  have hfed : (r.candidate?.bind Candidate.bare?).toList.length ≤ r.candidate?.isSome.toNat := by
    cases r.candidate? with
    | none => exact Nat.le_refl 0
    | some c => cases c <;> simp [Candidate.bare?]
  rw [List.length_append, List.length_append, List.length_map] at hlength
  omega

/-- Two clicks wait behind one that is due. Each of them is to open a page, and no time is left for
it: a tick settles all three, and takes all the turns that there may be. -/
example :
    let click : Action := { kind := .click, page := "page" }
    let m : Coalescer ℕ :=
      { signalWindow := 0, syncTimeout := 0, opened := some ⟨click, 0, none⟩
        backlog := [.action ⟨click, none, some .popup⟩, .action ⟨click, none, some .popup⟩]
        lastNow := 0 }
    ((Work.start m (.call (.tick 0))).after 8).duties ≠ [] ∧
      ((Work.start m (.call (.tick 0))).after 9).duties = [] ∧
      (m.serve (.call (.tick 0))).2.committed.length = 3 := by
  decide +kernel

end Scribe.Coalescer
