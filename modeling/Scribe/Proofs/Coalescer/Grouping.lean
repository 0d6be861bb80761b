import Mathlib.Data.List.Nodup
import Scribe.Proofs.Coalescer.Fills

/-!
# The grouping of what is fed

Which actions are to be committed can be said without a coalescer, by looking at all that is fed,
and at the times at which it arrives. For each position there is a rule:

| What arrives | What becomes of it |
|---|---|
| a fill | itself, unless the next that arrives is a fill of the same element |
| any other action | itself, with the signals that are put down to it, in order |
| a signal | nothing if it is put down to an action, otherwise the action that stands for it |

A signal is put down to an earlier action (`Scribe.PutDown`) if that bears signals and is on the
page of the signal, if the signal comes within the window, and if everything between the two is put
down to this action as well and is of other kinds. The grouping (`Scribe.grouping`) is what becomes
of all positions, in order. It is meant for plain arrivals (`Scribe.Arrival.IsPlain`): nothing is
awaited.

What is proved here is how the grouping begins, depending on how that which is fed begins:
`Scribe.grouping_block` for an action and the signals behind it, `Scribe.grouping_fill`,
`Scribe.grouping_signal` and `Scribe.grouping_other` for a candidate by itself. All of them cut what
is fed at a place that nothing is put down across (`Scribe.grouping_append`). What the coalescer
makes of it is in `Scribe.Proofs.Coalescer.Gathering`.
-/

namespace Scribe

/-- **An arrival**: a candidate that is fed, and when. -/
inductive Arrival (τ : Type) where
  | action (c : ActionCandidate) (now : τ)
  | signal (s : SignalCandidate) (now : τ)

namespace Arrival

variable {τ : Type}

/-- The call that feeds the candidate. -/
def call : Arrival τ → Coalescer.Call τ
  | action c now => .action c now
  | signal s now => .signal s now

/-- The candidate that arrives. -/
def candidate : Arrival τ → Candidate
  | action c _ => .action c
  | signal s _ => .signal s

/-- When it arrives. -/
def now : Arrival τ → τ
  | action _ now => now
  | signal _ now => now

/-- **A plain arrival**: an action awaits nothing and carries no signals yet. -/
def IsPlain : Arrival τ → Prop
  | action c _ => c.awaiting = none ∧ c.action.signals = []
  | signal .. => True

/-- The signal that arrives, if one does. -/
def signal? : Arrival τ → Option SignalCandidate
  | action .. => none
  | signal s _ => some s

/-- Whether a fill of the same element as a candidate arrives. -/
def refills (c : ActionCandidate) : Arrival τ → Bool
  | action d _ => d.isMergeable && c.key == d.key
  | signal .. => false

end Arrival

/-! ### The groups by position -/

section

variable {τ : Type} [Add τ] [LT τ] [DecidableLT τ] (window : τ) (fed : List (Arrival τ))

/-- Whether the candidates at two positions suit each other: the first is a signal-bearing action,
and the second a signal of its page that arrives within the window. -/
def suits (i j : ℕ) : Bool :=
  match fed[i]?, fed[j]? with
  | some (.action c start), some (.signal s now) =>
    c.action.kind.bearsSignals && s.page == c.action.page && decide (now < start + window)
  | _, _ => false

/-- The kind of the signal that arrives at a position. -/
def kindAt? (j : ℕ) : Option SignalKind :=
  (fed[j]?.bind Arrival.signal?).map (·.signal.kind)

/-- **The signal at one position is put down to the action at another**, before it: the two suit
each other, and all that arrives between them is put down to this action as well and is of other
kinds. -/
inductive PutDown : ℕ → ℕ → Prop
  | intro {i j : ℕ} (before : i < j) (suit : suits window fed i j = true)
      (between : ∀ k, i < k → k < j → PutDown i k)
      (kinds : ∀ k, i < k → k < j → kindAt? fed k ≠ kindAt? fed j) : PutDown i j

variable {window fed}

/-- **What is put down to an action** stands right behind it, one after the other. -/
theorem putDown_iff {i j : ℕ} :
    PutDown window fed i j ↔ i < j ∧ ∀ k < j + 1, i < k →
      suits window fed i k = true ∧ ∀ l < k, i < l → kindAt? fed l ≠ kindAt? fed k := by
  induction j using Nat.strongRecOn with
  | ind j ih =>
    refine ⟨fun ⟨hij, hsuits, hbetween, hkinds⟩ => ⟨hij, fun k hk hik => ?_⟩, fun ⟨hij, hall⟩ => ?_⟩
    · rcases Nat.lt_or_eq_of_le (Nat.le_of_lt_succ hk) with hkj | rfl
      · exact ((ih k hkj).mp (hbetween k hik hkj)).2 k (Nat.lt_succ_self k) hik
      · exact ⟨hsuits, fun l hl hil => hkinds l hil hl⟩
    · obtain ⟨hsuits, hkinds⟩ := hall j (Nat.lt_succ_self j) hij
      refine ⟨hij, hsuits, fun k hik hkj => (ih k hkj).mpr ⟨hik, fun l hl => ?_⟩,
        fun k hik hkj => hkinds k hkj hik⟩
      exact hall l (by omega)

theorem PutDown.before {i j : ℕ} (h : PutDown window fed i j) : i < j := by
  obtain ⟨hij, -, -, -⟩ := h
  exact hij

/-- A signal is put down to a signal-bearing action. -/
theorem PutDown.exists_candidates {i j : ℕ} (h : PutDown window fed i j) :
    ∃ c start s now, fed[i]? = some (.action c start) ∧ c.action.kind.bearsSignals = true ∧
      fed[j]? = some (.signal s now) := by
  obtain ⟨-, hsuits, -, -⟩ := h
  rw [suits] at hsuits
  split at hsuits
  · next c start s now haction hsignal =>
    obtain ⟨⟨hbears, -⟩, -⟩ := by simpa only [Bool.and_eq_true] using hsuits
    exact ⟨c, start, s, now, haction, hbears, hsignal⟩
  · cases hsuits

/-- **The action is the last before the signal**, so a signal is put down to one action at most. -/
theorem PutDown.unique {i k j : ℕ} (h : PutDown window fed i j) (h' : PutDown window fed k j) :
    i = k := by
  have hlast {i k : ℕ} (h : PutDown window fed i j) (h' : PutDown window fed k j) : ¬i < k := by
    intro hik
    obtain ⟨-, -, hbetween, -⟩ := h
    obtain ⟨-, -, s, now, -, -, hsignal⟩ := (hbetween k hik h'.before).exists_candidates
    obtain ⟨c, start, -, -, haction, -, -⟩ := h'.exists_candidates
    rw [hsignal] at haction
    cases haction
  exact Nat.le_antisymm (Nat.not_lt.mp (hlast h' h)) (Nat.not_lt.mp (hlast h h'))

instance (i j : ℕ) : Decidable (PutDown window fed i j) :=
  decidable_of_iff _ putDown_iff.symm

variable (window fed)

/-- The signal at a position, if it is put down to the action at another. -/
def signalOf? (i j : ℕ) : Option Signal :=
  if PutDown window fed i j then (fed[j]?.bind Arrival.signal?).map (·.signal) else none

/-- The signals that are put down to the action at a position, in order. -/
def signalsOf (i : ℕ) : List Signal :=
  (List.range fed.length).filterMap (signalOf? window fed i)

/-- **What becomes of the candidate at a position**: a fill gives way if the next candidate is a
fill of the same element, any other action gets the signals that are put down to it, and a signal
stands for itself unless it is put down to an action. -/
def groupAt? (i : ℕ) : Option Action :=
  match fed[i]? with
  | none => none
  | some (.action c _) =>
    if c.isMergeable then
      if fed[i + 1]?.any (Arrival.refills c) then none else some c.action
    else some { c.action with signals := signalsOf window fed i }
  | some (.signal s _) =>
    if ∃ k < i, PutDown window fed k i then none else some s.standalone

/-- **The groups**, in order. -/
def grouping : List Action :=
  (List.range fed.length).filterMap (groupAt? window fed)

/-! ### Cutting what is fed -/

section

variable {window} {fed : List (Arrival τ)} {pre rest : List (Arrival τ)} {i j : ℕ}

omit [Add τ] [LT τ] [DecidableLT τ] in
theorem getElem?_shift (pre rest : List (Arrival τ)) (i : ℕ) :
    (pre ++ rest)[pre.length + i]? = rest[i]? := by
  rw [List.getElem?_append_right (Nat.le_add_right _ _), Nat.add_sub_cancel_left]

/-- **Only what lies behind an action matters** for what is put down to it. -/
theorem putDown_shift :
    PutDown window (pre ++ rest) (pre.length + i) (pre.length + j) ↔ PutDown window rest i j := by
  have hsuits (i j : ℕ) : suits window (pre ++ rest) (pre.length + i) (pre.length + j) =
      suits window rest i j := by
    simp only [suits, getElem?_shift]
  have hkinds (j : ℕ) : kindAt? (pre ++ rest) (pre.length + j) = kindAt? rest j := by
    simp only [kindAt?, getElem?_shift]
  rw [putDown_iff, putDown_iff, Nat.add_lt_add_iff_left]
  refine and_congr_right fun _ => ⟨fun h k hk hik => ?_, fun h k hk hik => ?_⟩
  · obtain ⟨hsuit, hkind⟩ := h (pre.length + k) (by omega) (by omega)
    rw [hsuits] at hsuit
    refine ⟨hsuit, fun l hl hil => ?_⟩
    rw [← hkinds, ← hkinds]
    exact hkind (pre.length + l) (by omega) (by omega)
  · obtain ⟨k, rfl⟩ := Nat.exists_eq_add_of_le (show pre.length ≤ k by omega)
    obtain ⟨hsuit, hkind⟩ := h k (by omega) (by omega)
    rw [hsuits]
    refine ⟨hsuit, fun l hl hil => ?_⟩
    obtain ⟨l, rfl⟩ := Nat.exists_eq_add_of_le (show pre.length ≤ l by omega)
    rw [hkinds, hkinds]
    exact hkind l (by omega) (by omega)

variable (hcut : ∀ i < pre.length, ¬PutDown window (pre ++ rest) i pre.length)

include hcut

/-- If the first of the rest is not put down to anything before, nothing of the rest is. -/
theorem not_putDown_of_cut (hi : i < pre.length) (j : ℕ) :
    ¬PutDown window (pre ++ rest) i (pre.length + j) := by
  rintro ⟨hij, hsuits, hbetween, hkinds⟩
  cases j with
  | zero => exact hcut i hi ⟨hij, hsuits, hbetween, hkinds⟩
  | succ j => exact hcut i hi (hbetween pre.length hi (by omega))

omit hcut in
theorem signalsOf_shift (i : ℕ) :
    signalsOf window (pre ++ rest) (pre.length + i) = signalsOf window rest i := by
  have hfirst : (List.range pre.length).filterMap
      (signalOf? window (pre ++ rest) (pre.length + i)) = [] := by
    refine List.filterMap_eq_nil_iff.mpr fun j hj => if_neg fun hput => ?_
    have hbefore : pre.length + i < j := hput.before
    have hlt := List.mem_range.mp hj
    omega
  have hshift : signalOf? window (pre ++ rest) (pre.length + i) ∘ (pre.length + ·) =
      signalOf? window rest i := by
    funext j
    simp only [Function.comp_apply, signalOf?, putDown_shift, getElem?_shift]
  rw [signalsOf, List.length_append, List.range_add, List.filterMap_append, hfirst,
    List.nil_append, List.filterMap_map, hshift]
  rfl

/-- What becomes of the rest is not a matter of what comes before. -/
theorem groupAt?_shift (i : ℕ) :
    groupAt? window (pre ++ rest) (pre.length + i) = groupAt? window rest i := by
  have hput : (∃ k < pre.length + i, PutDown window (pre ++ rest) k (pre.length + i)) ↔
      ∃ k < i, PutDown window rest k i := by
    refine ⟨fun ⟨k, hk, hput⟩ => ?_, fun ⟨k, hk, hput⟩ =>
      ⟨pre.length + k, by omega, putDown_shift.mpr hput⟩⟩
    rcases Nat.lt_or_ge k pre.length with hlt | hge
    · exact absurd hput (not_putDown_of_cut hcut hlt i)
    · obtain ⟨k, rfl⟩ := Nat.exists_eq_add_of_le hge
      exact ⟨k, by omega, putDown_shift.mp hput⟩
  simp only [groupAt?, Nat.add_assoc, getElem?_shift, signalsOf_shift, hput]

/-- **The groups on either side of a cut.** -/
theorem grouping_append :
    grouping window (pre ++ rest) =
      (List.range pre.length).filterMap (groupAt? window (pre ++ rest)) ++
        grouping window rest := by
  rw [grouping, List.length_append, List.range_add, List.filterMap_append, List.filterMap_map]
  simp only [Function.comp_def, groupAt?_shift hcut]
  rfl

end

/-! ### One group -/

section

variable {window} {rest : List (Arrival τ)} {c : ActionCandidate} {start : τ}
  {sigs : List (SignalCandidate × τ)} {a : Arrival τ}

/-- An action, and signals right behind it. -/
def block (c : ActionCandidate) (start : τ) (sigs : List (SignalCandidate × τ)) :
    List (Arrival τ) :=
  .action c start :: sigs.map fun s => .signal s.1 s.2

/-- **Signals that are put down to an action** if they stand right behind it: they are of its page
and arrive within the window, and no two are of a kind. -/
structure Suited (window : τ) (c : ActionCandidate) (start : τ)
    (sigs : List (SignalCandidate × τ)) : Prop where
  bears : sigs ≠ [] → c.action.kind.bearsSignals = true
  page : ∀ s ∈ sigs, s.1.page = c.action.page
  inTime : ∀ s ∈ sigs, s.2 < start + window
  kinds : (sigs.map (·.1.signal.kind)).Nodup

/-- Whether an arrival goes on with a group: a signal of the page, in time, and the first of its
kind. -/
def goesOn (window : τ) (c : ActionCandidate) (start : τ) (sigs : List (SignalCandidate × τ)) :
    Arrival τ → Bool
  | .action .. => false
  | .signal s now => c.action.kind.bearsSignals && s.page == c.action.page &&
      decide (now < start + window) && !(sigs.map (·.1.signal.kind)).contains s.signal.kind

omit [DecidableLT τ] in
theorem suited_nil : Suited window c start [] :=
  ⟨fun h => absurd rfl h, fun _ h => (nomatch h), fun _ h => (nomatch h), .nil⟩

/-- One more signal suits the action if it goes on with the group. -/
theorem Suited.concat (h : Suited window c start sigs) {s : SignalCandidate} {now : τ}
    (hgoes : goesOn window c start sigs (.signal s now) = true) :
    Suited window c start (sigs ++ [(s, now)]) := by
  simp only [goesOn, Bool.and_eq_true, beq_iff_eq, decide_eq_true_eq, Bool.not_eq_true',
    List.contains_eq_mem, decide_eq_false_iff_not] at hgoes
  obtain ⟨⟨⟨hbears, hpage⟩, htime⟩, hkind⟩ := hgoes
  have hall {P : SignalCandidate × τ → Prop} (hsigs : ∀ t ∈ sigs, P t) (hs : P (s, now)) :
      ∀ t ∈ sigs ++ [(s, now)], P t := fun t ht => by
    rcases List.mem_append.mp ht with ht | ht
    · exact hsigs t ht
    · rwa [List.mem_singleton.mp ht]
  refine ⟨fun _ => hbears, hall h.page hpage, hall h.inTime htime, ?_⟩
  rw [List.map_append, List.map_singleton]
  exact List.nodup_append.mpr ⟨h.kinds, List.nodup_singleton _, fun k hk k' hk' heq =>
    hkind (by rwa [← List.mem_singleton.mp hk', ← heq])⟩

omit [Add τ] [LT τ] [DecidableLT τ] in
theorem length_block : (block c start sigs).length = sigs.length + 1 := by
  simp [block]

omit [Add τ] [LT τ] [DecidableLT τ] in
theorem block_concat (s : SignalCandidate) (now : τ) :
    block c start (sigs ++ [(s, now)]) = block c start sigs ++ [.signal s now] := by
  simp [block]

omit [Add τ] [LT τ] [DecidableLT τ] in
theorem getElem?_block {j : ℕ} (hj : j < sigs.length) :
    (block c start sigs ++ rest)[j + 1]? = some (.signal sigs[j].1 sigs[j].2) := by
  rw [List.getElem?_append_left (by rw [length_block]; omega)]
  simp [block, hj]

omit [Add τ] [LT τ] [DecidableLT τ] in
theorem kindAt?_block {j : ℕ} (hj : j < sigs.length) :
    kindAt? (block c start sigs ++ rest) (j + 1) = some sigs[j].1.signal.kind := by
  rw [kindAt?, getElem?_block hj]
  rfl

/-- **Within a group** all signals are put down to the action. -/
theorem Suited.putDown (h : Suited window c start sigs) {j : ℕ} (hj : j < sigs.length) :
    PutDown window (block c start sigs ++ rest) 0 (j + 1) := by
  refine putDown_iff.mpr ⟨Nat.succ_pos j, fun k hk hpos => ?_⟩
  obtain ⟨k, rfl⟩ := Nat.exists_eq_add_one_of_ne_zero (Nat.ne_of_gt hpos)
  have hk' : k < sigs.length := by omega
  have hmem : sigs[k] ∈ sigs := List.getElem_mem hk'
  refine ⟨?_, fun l hl hpos' => ?_⟩
  · have hzero : (block c start sigs ++ rest)[0]? = some (.action c start) := rfl
    rw [suits, hzero, getElem?_block hk']
    simp [h.bears (List.ne_nil_of_mem hmem), h.page _ hmem, h.inTime _ hmem]
  · obtain ⟨l, rfl⟩ := Nat.exists_eq_add_one_of_ne_zero (Nat.ne_of_gt hpos')
    have hl' : l < sigs.length := by omega
    rw [kindAt?_block hl', kindAt?_block hk']
    intro heq
    have hkinds : (sigs.map (·.1.signal.kind))[l]? = (sigs.map (·.1.signal.kind))[k]? := by
      simpa [hl', hk'] using heq
    have hindex := (List.getElem?_inj (by simpa using hl') h.kinds).mp hkinds
    omega

/-- **What does not go on with a group** is not put down to its action. -/
theorem not_putDown_of_goesOn (ha : goesOn window c start sigs a = false) {i : ℕ}
    (hi : i < (block c start sigs).length) :
    ¬PutDown window (block c start sigs ++ a :: rest) i (block c start sigs).length := by
  intro hput
  obtain ⟨d, start', -, -, hi', -, -⟩ := hput.exists_candidates
  -- only the action of the group can be meant: the others in it are signals
  have hzero : i = 0 := by
    cases i with
    | zero => rfl
    | succ i =>
      rw [length_block] at hi
      rw [getElem?_block (Nat.lt_of_succ_lt_succ hi)] at hi'
      cases hi'
  subst hzero
  have hfirst : (block c start sigs ++ a :: rest)[0]? = some (.action c start) := rfl
  have hlast : (block c start sigs ++ a :: rest)[(block c start sigs).length]? = some a := by simp
  obtain ⟨-, hsuits, -, hkinds⟩ := hput
  rw [suits, hfirst, hlast] at hsuits
  cases a with
  | action e now => cases hsuits
  | signal s now =>
    have hkind : (sigs.map (·.1.signal.kind)).contains s.signal.kind = false := by
      refine Bool.eq_false_iff.mpr fun hmem => ?_
      obtain ⟨t, ht, heq⟩ := List.mem_map.mp (List.contains_iff_mem.mp hmem)
      obtain ⟨k, hk, rfl⟩ := List.mem_iff_getElem.mp ht
      refine hkinds (k + 1) (Nat.succ_pos k) (by rw [length_block]; omega) ?_
      rw [kindAt?_block hk, heq, kindAt?, hlast]
      rfl
    rw [goesOn, hkind, Bool.not_false, Bool.and_true] at ha
    exact Bool.false_ne_true (ha.symm.trans hsuits)

/-- A list is made of what stands at its positions. -/
theorem filterMap_getElem? {α : Type} (l : List α) :
    (List.range l.length).filterMap (fun j => l[j]?) = l := by
  induction l with
  | nil => rfl
  | cons x l ih =>
    rw [List.length_cons, List.range_succ_eq_map, List.filterMap_cons, List.filterMap_map]
    exact congrArg (x :: ·) ih

/-- Nothing behind a group is put down to its action. -/
theorem block_cut (hnext : ∀ a ∈ rest.head?, goesOn window c start sigs a = false) {i : ℕ}
    (hi : i < (block c start sigs).length) :
    ¬PutDown window (block c start sigs ++ rest) i (block c start sigs).length := by
  cases rest with
  | cons a rest => exact not_putDown_of_goesOn (hnext a rfl) hi
  | nil =>
    intro hput
    obtain ⟨-, -, s, now, -, -, hsignal⟩ := hput.exists_candidates
    simp at hsignal

/-- **The signals of a group**, in order. -/
theorem signalsOf_block (h : Suited window c start sigs)
    (hnext : ∀ a ∈ rest.head?, goesOn window c start sigs a = false) :
    signalsOf window (block c start sigs ++ rest) 0 = sigs.map (·.1.signal) := by
  have hself : signalOf? window (block c start sigs ++ rest) 0 0 = none :=
    if_neg fun hput => Nat.lt_irrefl 0 hput.before
  have hbehind : ((List.range rest.length).map ((block c start sigs).length + ·)).filterMap
      (signalOf? window (block c start sigs ++ rest) 0) = [] := by
    refine List.filterMap_eq_nil_iff.mpr fun j hj => if_neg ?_
    obtain ⟨j, -, rfl⟩ := List.mem_map.mp hj
    exact not_putDown_of_cut (fun i hi => block_cut hnext hi) (Nat.succ_pos _) j
  rw [signalsOf, List.length_append, List.range_add, List.filterMap_append, hbehind,
    List.append_nil, length_block, List.range_succ_eq_map, List.filterMap_cons_none hself,
    List.filterMap_map, ← filterMap_getElem? (sigs.map _), List.length_map]
  refine List.filterMap_congr fun j hj => ?_
  have hlt := List.mem_range.mp hj
  rw [Function.comp_apply, signalOf?, if_pos (h.putDown hlt), getElem?_block hlt,
    List.getElem?_map, List.getElem?_eq_getElem hlt]
  rfl

/-- **A group comes first** if the next arrival does not go on with it. -/
theorem grouping_block (hc : c.isMergeable = false) (h : Suited window c start sigs)
    (hnext : ∀ a ∈ rest.head?, goesOn window c start sigs a = false) :
    grouping window (block c start sigs ++ rest) =
      { c.action with signals := sigs.map (·.1.signal) } :: grouping window rest := by
  have hsigs : ((List.range sigs.length).map Nat.succ).filterMap
      (groupAt? window (block c start sigs ++ rest)) = [] := by
    refine List.filterMap_eq_nil_iff.mpr fun j hj => ?_
    obtain ⟨k, hk, rfl⟩ := List.mem_map.mp hj
    have hlt := List.mem_range.mp hk
    rw [groupAt?, getElem?_block hlt]
    exact if_pos ⟨0, Nat.succ_pos k, h.putDown hlt⟩
  have hfirst : groupAt? window (block c start sigs ++ rest) 0 =
      some { c.action with signals := sigs.map (·.1.signal) } := by
    have hzero : (block c start sigs ++ rest)[0]? = some (.action c start) := rfl
    rw [groupAt?, hzero]
    simp only [hc, Bool.false_eq_true, if_false]
    rw [signalsOf_block h hnext]
  rw [grouping_append fun i hi => block_cut hnext hi, length_block, List.range_succ_eq_map,
    List.filterMap_cons_some hfirst, hsigs]
  rfl

/-! ### One candidate by itself -/

/-- What is not followed by something that is put down to it is by itself. -/
theorem grouping_cons (hcut : ¬PutDown window (a :: rest) 0 1) :
    grouping window (a :: rest) =
      (groupAt? window (a :: rest) 0).toList ++ grouping window rest := by
  have hall : ∀ i < [a].length, ¬PutDown window ([a] ++ rest) i [a].length := fun i hi => by
    obtain rfl := Nat.lt_one_iff.mp hi
    exact hcut
  have hgroups := grouping_append hall
  rw [List.singleton_append] at hgroups
  rw [hgroups]
  cases hgroup : groupAt? window (a :: rest) 0 <;> simp [List.range_one, hgroup]

/-- **A fill comes first** unless the next arrival is a fill of the same element. -/
theorem grouping_fill (hc : c.isMergeable = true) :
    grouping window (.action c start :: rest) =
      (if rest.head?.any (Arrival.refills c) then [] else [c.action]) ++ grouping window rest := by
  have hcut : ¬PutDown window (.action c start :: rest) 0 1 := fun hput => by
    obtain ⟨d, start', -, -, hsome, hbears, -⟩ := hput.exists_candidates
    obtain ⟨rfl, -⟩ := Arrival.action.inj (Option.some.inj hsome)
    exact ActionCandidate.not_isMergeable hbears hc
  have hnext : (Arrival.action c start :: rest)[0 + 1]? = rest.head? := by
    rw [List.getElem?_cons_succ, List.head?_eq_getElem?]
  rw [grouping_cons hcut, groupAt?]
  simp only [List.getElem?_cons_zero, hc, if_true, hnext]
  split <;> rfl

/-- **Any other action that comes first** receives no signals. -/
theorem grouping_other (hc : c.isMergeable = false) (hbears : c.action.kind.bearsSignals = false)
    (hsignals : c.action.signals = []) :
    grouping window (.action c start :: rest) = c.action :: grouping window rest := by
  have hgroups : grouping window (block c start [] ++ rest) =
      { c.action with signals := [] } :: grouping window rest :=
    grouping_block hc suited_nil fun a _ => by
      cases a with
      | action d now => rfl
      | signal s now => rw [goesOn, hbears, Bool.false_and, Bool.false_and, Bool.false_and]
  rw [← hsignals] at hgroups
  exact hgroups

/-- **A signal that comes first** stands for itself. -/
theorem grouping_signal {s : SignalCandidate} {now : τ} :
    grouping window (.signal s now :: rest) = s.standalone :: grouping window rest := by
  have hcut : ¬PutDown window (.signal s now :: rest) 0 1 := fun hput => by
    obtain ⟨d, start', -, -, hsome, -, -⟩ := hput.exists_candidates
    cases hsome
  have hnone : ¬∃ k < 0, PutDown window (.signal s now :: rest) k 0 := fun ⟨k, hk, _⟩ =>
    Nat.not_lt_zero k hk
  rw [grouping_cons hcut, groupAt?, List.getElem?_cons_zero]
  simp only [if_neg hnone]
  rfl

end

end

end Scribe
