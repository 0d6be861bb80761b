import Scribe.Output.Waits
import Scribe.Proofs.Output.Notify
import Scribe.Proofs.PageNames.Binding

/-!
# Waits side by side

Waits are asked for, begin, run out of time and are cancelled in any order, each at its own pace,
while the output is generated anew, subscribed to and frozen (`Scribe.Waits.Move`). What the waits
do together – take note of what happened, let time go by – is made of such moves
(`Scribe.Waits.settle_eq_run`, `Scribe.Waits.advance_eq_run`).

Two things are kept by every move. The registered waiters are those of the waits that are waiting,
and the output is watchful (`Scribe.Waits.IsSound`). And each wait has a story: what has become of
it is what follows from the programs of its language since it began (`Scribe.Waits.Story`). The main
statement is `Scribe.Waits.run_waits`.
-/

namespace Scribe

open Program

/-- The number of the waiter of a wait, while it is waiting. -/
def WaitPhase.ticket? {τ : Type} : WaitPhase τ → Option ℕ
  | .waiting ticket _ => some ticket
  | _ => none

theorem WaitPhase.ticket?_eq_some {τ : Type} {p : WaitPhase τ} {ticket : ℕ} :
    p.ticket? = some ticket ↔ ∃ deadline, p = .waiting ticket deadline := by
  cases p <;> simp [ticket?]

/-- **What has become of a wait** for a text is told by the programs that it has seen: as long as it
is waiting none of them holds the text, and when it has an answer, this is the first one that does.
-/
def WaitPhase.Fits {τ : Type} (substring : String) (seen : List Source) : WaitPhase τ → Prop
  | .asked .. => False
  | .waiting .. => ∀ s ∈ seen, Text.contains s.text substring = false
  | .answered s | .ended (.answered s) =>
    seen.find? (fun s => Text.contains s.text substring) = some s
  | .ended (.unknown _) => seen = []
  | .cancelling | .ended .timedOut | .ended .cancelled => True

/-- More programs are seen: while the wait is waiting they do not hold the text. -/
theorem WaitPhase.Fits.append {τ : Type} {p : WaitPhase τ} {substring : String}
    {seen more : List Source} (h : p.Fits substring seen) (hnone : seen = [] → more = [])
    (hwaiting : p.ticket? ≠ none → ∀ s ∈ more, Text.contains s.text substring = false) :
    p.Fits substring (seen ++ more) := by
  unfold WaitPhase.Fits at h ⊢
  split at h
  · exact h
  · intro s hs
    exact (List.mem_append.mp hs).elim (h s) (hwaiting (by simp [WaitPhase.ticket?]) s)
  · simp [List.find?_append, h]
  · simp [List.find?_append, h]
  · simp [h, hnone h]
  · trivial
  · trivial
  · trivial

namespace Waits

variable {τ : Type}

/-- The phase of a wait. -/
def phase? (w : Waits τ) (k : ℕ) : Option (WaitPhase τ) :=
  w.waits[k]?.map (·.2)

/-- The waiters of the waits that are waiting. -/
def tickets (waits : List (String × WaitPhase τ)) : List ℕ :=
  waits.filterMap (·.2.ticket?)

/-- The program of a language, if there is one. -/
def program (w : Waits τ) (tag : String) : List Source :=
  (w.output.source? tag).toList

/-! ### Moves -/

/-- **A turn** of one wait. -/
def turn (f : Output → WaitPhase τ → Output × WaitPhase τ) (w : Waits τ) (k : ℕ) : Waits τ :=
  match w.waits[k]? with
  | none => w
  | some (name, p) =>
    { w with output := (f w.output p).1, waits := w.waits.set k (name, (f w.output p).2) }

/-- **The output is generated anew**, in steps. -/
def publish (raises : Callback → Bool) (w : Waits τ) (actions : List Action)
    (aliases : AliasTable) : Waits τ :=
  let (output, u, _) := w.output.publish raises actions aliases
  { w with output := output, waits := w.waits.map fun e => (e.1, afterAnswers u.answered e.2) }

/-- **A move.** The waits are numbered as they are asked for. -/
inductive Move (τ : Type) where
  | ask (tag substring : String) (timeout : Option τ)
  /-- A wait takes note of what happened to it; a wait that was asked for begins. -/
  | attend (k : ℕ)
  /-- A wait runs out, if its deadline has been reached. -/
  | expire (k : ℕ)
  | cancel (k : ℕ)
  | pass (seconds : τ)
  /-- The output is generated anew, and some callbacks raise something. -/
  | update (actions : List Action) (aliases : AliasTable) (raises : Callback → Bool)
  | subscribe (c : Callback)
  | unsubscribe (c : Callback)
  | freeze

section

variable [OfNat τ 0] [Add τ] [LE τ] [DecidableLE τ]

/-- **Makes a move.** -/
def perform (w : Waits τ) : Move τ → Waits τ
  | .ask tag substring timeout =>
    w.ask (numbered "wait" w.waits.length) tag substring timeout
  | .attend k => w.turn (settlePhase · w.now ·) k
  | .expire k => w.turn (expirePhase w.now) k
  | .cancel k => w.cancel (numbered "wait" k)
  | .pass seconds => { w with now := w.now + seconds }
  | .update actions aliases raises => w.publish raises actions aliases
  | .subscribe c => { w with output := w.output.subscribe c }
  | .unsubscribe c => { w with output := w.output.unsubscribe c }
  | .freeze => { w with output := w.output.freeze }

/-- **Makes moves in order.** -/
def run (w : Waits τ) (moves : List (Move τ)) : Waits τ :=
  moves.foldl perform w

theorem run_cons (w : Waits τ) (m : Move τ) (rest : List (Move τ)) :
    w.run (m :: rest) = (w.perform m).run rest := rfl

theorem run_append (w : Waits τ) (moves more : List (Move τ)) :
    w.run (moves ++ more) = (w.run moves).run more :=
  List.foldl_append

/-- **The programs of a language**, now and after each move. -/
def seen (w : Waits τ) (tag : String) : List (Move τ) → List Source
  | [] => w.program tag
  | m :: rest => w.program tag ++ (w.perform m).seen tag rest

end

/-- The output of an empty log, with no waits on it. -/
def start (c : Catalog) (now : τ) : Waits τ where
  output := .ofCatalog c
  now := now

/-! ### Turns in order -/

section

variable {f : Output → WaitPhase τ → Output × WaitPhase τ}

/-- The turns of the waits of a list, one after the other. -/
def turns (f : Output → WaitPhase τ → Output × WaitPhase τ) :
    Output → List (String × WaitPhase τ) → Output × List (String × WaitPhase τ)
  | output, [] => (output, [])
  | output, (name, p) :: rest =>
    let (output, p) := f output p
    let (output, rest) := turns f output rest
    (output, (name, p) :: rest)

theorem now_turn (w : Waits τ) (k : ℕ) : (w.turn f k).now = w.now := by
  rw [turn]
  split <;> rfl

/-- Each wait of a list takes its turn. -/
theorem foldl_turn (w : Waits τ) (pre rest : List (String × WaitPhase τ))
    (h : w.waits = pre ++ rest) :
    (List.range' pre.length rest.length).foldl (turn f) w =
      { w with
        output := (turns f w.output rest).1
        waits := pre ++ (turns f w.output rest).2 } := by
  induction rest generalizing w pre with
  | nil => simp [turns, ← h]
  | cons e rest ih =>
    obtain ⟨name, p⟩ := e
    have hturn : w.turn f pre.length =
        { w with
          output := (f w.output p).1
          waits := (pre ++ [(name, (f w.output p).2)]) ++ rest } := by
      simp [turn, h]
    have hrest := ih (w.turn f pre.length) (pre ++ [(name, (f w.output p).2)]) (by rw [hturn])
    rw [List.length_append, List.length_singleton] at hrest
    rw [List.length_cons, List.range'_succ, List.foldl_cons, hrest, hturn]
    simp [turns]

theorem expireList_eq_turns [LE τ] [DecidableLE τ] (now : τ) (output : Output)
    (waits : List (String × WaitPhase τ)) :
    expireList now output waits = turns (expirePhase now) output waits := by
  induction waits generalizing output with
  | nil => rfl
  | cons e rest ih => simp only [expireList, turns, ih]

variable [OfNat τ 0] [Add τ] [LE τ] [DecidableLE τ]

theorem settleList_eq_turns (now : τ) (output : Output) (waits : List (String × WaitPhase τ)) :
    settleList now output waits = turns (settlePhase · now ·) output waits := by
  induction waits generalizing output with
  | nil => rfl
  | cons e rest ih => simp only [settleList, turns, ih]

/-- A run of moves that are turns at one time. -/
theorem run_turns {move : ℕ → Move τ} {f : τ → Output → WaitPhase τ → Output × WaitPhase τ}
    (hmove : ∀ (w : Waits τ) k, w.perform (move k) = w.turn (f w.now) k)
    (w : Waits τ) (ks : List ℕ) :
    w.run (ks.map move) = ks.foldl (turn (f w.now)) w := by
  induction ks generalizing w with
  | nil => rfl
  | cons k rest ih =>
    have hrest := ih (w.perform (move k))
    rw [hmove, now_turn] at hrest
    rw [List.map_cons, run_cons, hmove, hrest, List.foldl_cons]

/-- **Taking note** is a run of moves. -/
theorem settle_eq_run (w : Waits τ) :
    w.settle = w.run ((List.range w.waits.length).map .attend) := by
  rw [run_turns (f := fun now => (settlePhase · now ·)) fun _ _ => rfl, List.range_eq_range']
  refine .trans ?_ (foldl_turn w [] w.waits rfl).symm
  simp only [settle, settleList_eq_turns, List.nil_append]

/-- **Time going by** is a run of moves. -/
theorem advance_eq_run (w : Waits τ) (seconds : τ) :
    w.advance seconds = w.run ((List.range w.waits.length).map .attend ++
      .pass seconds :: (List.range w.settle.waits.length).map .expire) := by
  rw [run_append, ← settle_eq_run, run_cons, run_turns (f := expirePhase) fun _ _ => rfl,
    List.range_eq_range']
  refine .trans ?_ (foldl_turn (w.settle.perform (.pass seconds)) [] w.settle.waits rfl).symm
  simp only [advance, expireList_eq_turns, List.nil_append]
  rfl

end

/-! ### What a turn does -/

/-- What becomes of a wait that is cancelled. -/
def cancelPhase : Output → WaitPhase τ → Output × WaitPhase τ
  | output, .ended how => (output, .ended how)
  | output, .waiting ticket _ => (output.giveUp ticket, .cancelling)
  | output, _ => (output, .cancelling)

/-- **How a wait begins** at an output. -/
inductive Began (o : Output) (tag substring : String) : Output → WaitPhase τ → Prop
  /-- It ends, since its language is unknown. -/
  | refused (e : CatalogError) (habsent : o.source? tag = none) :
      Began o tag substring o (.ended (.unknown e))
  /-- It ends, since its text is there. -/
  | ready {s : Source} (hs : o.source? tag = some s)
      (hthere : Text.contains s.text substring = true) :
      Began o tag substring o (.ended (.answered s))
  | waits {s : Source} (hs : o.source? tag = some s)
      (hnew : Text.contains s.text substring = false) (deadline : Option τ) :
      Began o tag substring (o.register tag substring) (.waiting o.nextTicket deadline)
  /-- It has no time to wait. -/
  | tooLate {s : Source} (hs : o.source? tag = some s)
      (hnew : Text.contains s.text substring = false) :
      Began o tag substring ((o.register tag substring).giveUp o.nextTicket) (.ended .timedOut)

/-- **What a turn does** to an output and to the phase of a wait. -/
inductive Turned (o : Output) : WaitPhase τ → Output → WaitPhase τ → Prop
  | rests (p : WaitPhase τ) : Turned o p o p
  | begins {tag substring : String} (timeout : Option τ) {o' : Output} {p : WaitPhase τ}
      (h : Began o tag substring o' p) : Turned o (.asked tag substring timeout) o' p
  /-- The wait is given up. -/
  | leaves (ticket : ℕ) (deadline : Option τ) {p : WaitPhase τ}
      (hp : p = .ended .timedOut ∨ p = .cancelling) :
      Turned o (.waiting ticket deadline) (o.giveUp ticket) p
  /-- The wait has taken note of its answer. -/
  | noted (s : Source) : Turned o (.answered s) o (.ended (.answered s))
  /-- The wait has no waiter and is cancelled. -/
  | drops {p p' : WaitPhase τ} (hp : p.ticket? = none)
      (hp' : p' = .cancelling ∨ p' = .ended .cancelled) : Turned o p o p'

section

variable {o o' : Output} {p p' : WaitPhase τ}

theorem began_begin [OfNat τ 0] [Add τ] [LE τ] [DecidableLE τ] (o : Output) (now : τ)
    (tag substring : String) (timeout : Option τ) :
    Began o tag substring (begin_ o now tag substring timeout).1
      (begin_ o now tag substring timeout).2 := by
  rw [begin_, Output.wait, Output.get]
  cases hs : o.source? tag with
  | none => exact .refused _ hs
  | some s =>
    by_cases hthere : Text.contains s.text substring = true
    · simp only [hthere, if_true]
      exact .ready hs hthere
    · simp only [hthere]
      have hnew := eq_false_of_ne_true hthere
      cases timeout with
      | none => exact .waits hs hnew none
      | some t =>
        by_cases ht : t ≤ 0
        · simp only [ht, if_true]
          exact .tooLate hs hnew
        · simp only [ht, if_false]
          exact .waits hs hnew _

theorem turned_settlePhase [OfNat τ 0] [Add τ] [LE τ] [DecidableLE τ] (now : τ) (o : Output)
    (p : WaitPhase τ) : Turned o p (settlePhase o now p).1 (settlePhase o now p).2 := by
  cases p with
  | asked tag substring timeout => exact .begins timeout (began_begin ..)
  | waiting ticket deadline => exact .rests _
  | answered s => exact .noted s
  | cancelling => exact .drops rfl (.inr rfl)
  | ended how => exact .rests _

theorem turned_expirePhase [LE τ] [DecidableLE τ] (now : τ) (o : Output) (p : WaitPhase τ) :
    Turned o p (expirePhase now o p).1 (expirePhase now o p).2 := by
  unfold expirePhase
  split
  · split
    · exact .leaves _ _ (.inl rfl)
    · exact .rests _
  · exact .rests _

theorem turned_cancelPhase (o : Output) (p : WaitPhase τ) :
    Turned o p (cancelPhase o p).1 (cancelPhase o p).2 := by
  cases p with
  | waiting ticket deadline => exact .leaves _ _ (.inr rfl)
  | ended how => exact .rests _
  | asked | answered | cancelling => exact .drops rfl (.inl rfl)

theorem Turned.sources (h : Turned o p o' p') : o'.sources = o.sources := by
  cases h with
  | begins _ h => cases h <;> rfl
  | rests | leaves | noted | drops => rfl

theorem Turned.catalog (h : Turned o p o' p') : o'.catalog = o.catalog := by
  cases h with
  | begins _ h => cases h <;> rfl
  | rests | leaves | noted | drops => rfl

theorem Turned.isWatchful (h : Turned o p o' p') (ho : o.IsWatchful) : o'.IsWatchful := by
  cases h with
  | rests | noted | drops => exact ho
  | begins _ h =>
    cases h with
    | refused | ready => exact ho
    | waits hs hnew => exact ho.register hs hnew
    | tooLate hs hnew => exact (ho.register hs hnew).giveUp _
  | leaves ticket => exact ho.giveUp ticket

/-- The waiters of other waits stay. -/
theorem Turned.mem_waiters (h : Turned o p o' p') (ho : o.IsWatchful) {x : Waiter}
    (hx : x ∈ o.waiters) (hother : p.ticket? ≠ some x.ticket) : x ∈ o'.waiters := by
  cases h with
  | rests | noted | drops => exact hx
  | begins _ h =>
    cases h with
    | refused | ready => exact hx
    | waits => exact List.mem_append_left _ hx
    | tooLate => exact ho.giveUp_register _ _ ▸ hx
  | leaves ticket =>
    refine List.mem_filter.mpr ⟨hx, ?_⟩
    simpa using fun heq => hother (congrArg some heq.symm)

/-- **The registered waiters** follow the waits: if the waits before and after the one that has its
turn have the waiters of `A` and `B`, then together with it they have all waiters. -/
theorem Turned.perm (h : Turned o p o' p') (ho : o.IsWatchful) {A B : List ℕ}
    (hperm : (A ++ p.ticket?.toList ++ B).Perm (o.waiters.map (·.ticket))) :
    (A ++ p'.ticket?.toList ++ B).Perm (o'.waiters.map (·.ticket)) := by
  cases h with
  | rests | noted => exact hperm
  | drops hp hp' =>
    rw [hp] at hperm
    rcases hp' with rfl | rfl <;> exact hperm
  | begins _ h =>
    cases h with
    | refused | ready => exact hperm
    | waits =>
      have hcomm : ([o.nextTicket] ++ B).Perm (B ++ [o.nextTicket]) := List.perm_append_comm
      have hswap : (A ++ [o.nextTicket] ++ B).Perm (A ++ B ++ [o.nextTicket]) := by
        simpa only [List.append_assoc] using hcomm.append_left A
      simp only [WaitPhase.ticket?, Option.toList_none, List.append_nil] at hperm
      rw [Output.register, List.map_append]
      exact hswap.trans (hperm.append_right _)
    | tooLate =>
      rw [ho.giveUp_register]
      exact hperm
  | leaves ticket deadline hp =>
    have hone : (A ++ ticket :: B).Nodup := by
      simpa [WaitPhase.ticket?] using hperm.nodup_iff.mpr ho.tickets
    have hleft : (A ++ [ticket] ++ B).filter (· != ticket) = A ++ B := by
      have hnot : ∀ t ∈ A ++ B, (t != ticket) = true := fun t ht => by
        simpa using ne_of_mem_of_not_mem ht (List.nodup_cons.mp (List.nodup_middle.mp hone)).1
      rw [List.append_assoc, List.filter_append, List.singleton_append,
        List.filter_cons_of_neg (by simp), ← List.filter_append, List.filter_eq_self.mpr hnot]
    have hnone : p'.ticket? = none := by
      rcases hp with rfl | rfl <;> rfl
    have hfilter := hperm.filter (· != ticket)
    rw [List.filter_map] at hfilter
    rw [hnone, Option.toList_none, List.append_nil, ← hleft, Output.giveUp]
    exact hfilter

end

/-- **What has become of a wait** that has begun still fits after its turn, and if it is still
waiting, nothing has happened. -/
theorem Turned.fits {o o' : Output} {p p' : WaitPhase τ} (h : Turned o p o' p') {substring : String}
    {seen : List Source} (hfits : p.Fits substring seen) :
    p'.Fits substring seen ∧ ∀ t d, p' = .waiting t d → p = .waiting t d ∧ o' = o := by
  cases h with
  | rests => exact ⟨hfits, fun t d hp => ⟨hp, rfl⟩⟩
  | begins => exact hfits.elim
  | leaves ticket deadline hp =>
    rcases hp with rfl | rfl <;> exact ⟨trivial, fun _ _ hp => nomatch hp⟩
  | noted s => exact ⟨hfits, fun _ _ hp => nomatch hp⟩
  | drops hp hp' => rcases hp' with rfl | rfl <;> exact ⟨trivial, fun _ _ hp => nomatch hp⟩

/-! ### Sound waits -/

/-- One wait among the others, and what the waiters are when its phase is another. -/
theorem tickets_set {waits : List (String × WaitPhase τ)} {k : ℕ} {name : String} {p : WaitPhase τ}
    (h : waits[k]? = some (name, p)) :
    ∃ A B, tickets waits = A ++ p.ticket?.toList ++ B ∧
      ∀ p', tickets (waits.set k (name, p')) = A ++ p'.ticket?.toList ++ B := by
  have hsplit (e : String × WaitPhase τ) (rest : List (String × WaitPhase τ)) :
      tickets (e :: rest) = e.2.ticket?.toList ++ tickets rest := by
    rw [tickets, List.filterMap_cons]
    cases e.2.ticket? <;> rfl
  induction waits generalizing k with
  | nil => cases h
  | cons e rest ih =>
    cases k with
    | zero =>
      obtain rfl := Option.some.inj h
      exact ⟨[], tickets rest, hsplit _ _, fun p' => hsplit _ _⟩
    | succ k =>
      obtain ⟨A, B, hbefore, hafter⟩ := ih h
      refine ⟨e.2.ticket?.toList ++ A, B, ?_, fun p' => ?_⟩
      · rw [hsplit, hbefore]
        simp
      · rw [List.set_cons_succ, hsplit, hafter]
        simp

/-- **Sound waits**: the registered waiters are those of the waits that are waiting. -/
structure IsSound (w : Waits τ) : Prop where
  /-- No waiter is registered whose text is there. -/
  watchful : w.output.IsWatchful
  /-- The waits have the names of their numbers. -/
  names : ∀ k e, w.waits[k]? = some e → e.1 = numbered "wait" k
  /-- The waiters of the waits are the registered ones. -/
  registered : (tickets w.waits).Perm (w.output.waiters.map (·.ticket))

variable {w : Waits τ} {k : ℕ}

theorem isSound_start (c : Catalog) (now : τ) : (start c now).IsSound :=
  ⟨Output.isWatchful_ofCatalog c, by simp [start], .refl _⟩

theorem phase?_eq_some {p : WaitPhase τ} :
    w.phase? k = some p ↔ ∃ name, w.waits[k]? = some (name, p) := by
  simp [phase?]

/-- Waits that are waiting have different waiters. -/
theorem IsSound.number_eq (h : w.IsSound) {j : ℕ} {ticket : ℕ} {d d' : Option τ}
    (hj : w.phase? j = some (.waiting ticket d)) (hk : w.phase? k = some (.waiting ticket d')) :
    j = k := by
  by_contra hne
  obtain ⟨m, hj⟩ := phase?_eq_some.mp hj
  obtain ⟨n, hk⟩ := phase?_eq_some.mp hk
  obtain ⟨A, B, hbefore, hafter⟩ := tickets_set hk
  have hone : (A ++ ticket :: B).Nodup := by
    have := h.registered.nodup_iff.mpr h.watchful.tickets
    simpa [hbefore, WaitPhase.ticket?] using this
  -- without the one wait, the other still has the waiter
  have hmem : ticket ∈ tickets (w.waits.set k (n, .cancelling)) :=
    List.mem_filterMap.mpr
      ⟨_, List.mem_of_getElem? ((List.getElem?_set_ne (Ne.symm hne)).trans hj), rfl⟩
  rw [hafter] at hmem
  refine (List.nodup_cons.mp (List.nodup_middle.mp hone)).1 ?_
  simpa [WaitPhase.ticket?] using hmem

section

variable {f : Output → WaitPhase τ → Output × WaitPhase τ}

theorem IsSound.turn (hf : ∀ o p, Turned o p (f o p).1 (f o p).2) (h : w.IsSound) (k : ℕ) :
    (w.turn f k).IsSound := by
  rw [Waits.turn]
  split
  · exact h
  · next name p hk =>
    have hturned := hf w.output p
    obtain ⟨A, B, hbefore, hafter⟩ := tickets_set hk
    refine ⟨hturned.isWatchful h.watchful, fun j e hj => ?_, ?_⟩
    · by_cases hjk : k = j
      · subst hjk
        have hlt := (List.getElem?_eq_some_iff.mp hk).1
        simp only [List.getElem?_set_self hlt, Option.some.injEq] at hj
        exact hj ▸ h.names k (name, p) hk
      · exact h.names j e ((List.getElem?_set_ne hjk).symm.trans hj)
    · rw [hafter]
      exact hturned.perm h.watchful (hbefore ▸ h.registered)

end

/-! ### Waits by name -/

/-- A wait is found under the name of its number. -/
theorem IsSound.lookup (h : w.IsSound) (k : ℕ) :
    w.waits.lookup (numbered "wait" k) = w.phase? k := by
  -- the list may begin at any number
  have hfrom (waits : List (String × WaitPhase τ)) (n k : ℕ)
      (hnames : ∀ j e, waits[j]? = some e → e.1 = numbered "wait" (n + j)) :
      waits.lookup (numbered "wait" (n + k)) = waits[k]?.map (·.2) := by
    induction waits generalizing n k with
    | nil => rfl
    | cons e rest ih =>
      have hfirst : e.1 = numbered "wait" n := hnames 0 e rfl
      cases k with
      | zero => rw [Nat.add_zero, List.lookup_cons, hfirst, beq_self_eq_true]; rfl
      | succ k =>
        have hne : (numbered "wait" (n + (k + 1)) == e.1) = false := by
          rw [beq_eq_false_iff_ne, hfirst]
          intro heq
          have := numbered_inj heq
          omega
        rw [List.lookup_cons, hne, List.getElem?_cons_succ]
        have := ih (n + 1) k fun j e' hj => by
          rw [Nat.add_right_comm]
          exact hnames (j + 1) e' hj
        rwa [Nat.add_right_comm] at this
  have := hfrom w.waits 0 k fun j e hj => by rw [Nat.zero_add]; exact h.names j e hj
  rwa [Nat.zero_add] at this

/-- A wait is set under the name of its number. -/
theorem IsSound.set (h : w.IsSound) {e : String × WaitPhase τ} (he : w.waits[k]? = some e)
    (p : WaitPhase τ) :
    Waits.set w.waits (numbered "wait" k) p = w.waits.set k (e.1, p) := by
  have hname := h.names k e he
  have hany : w.waits.any (·.1 == numbered "wait" k) = true :=
    List.any_eq_true.mpr ⟨e, List.mem_of_getElem? he, by simp [hname]⟩
  rw [Waits.set, if_pos hany]
  refine List.ext_getElem? fun j => ?_
  rw [List.getElem?_map, List.getElem?_set]
  by_cases hjk : k = j
  · subst hjk
    have hlt := (List.getElem?_eq_some_iff.mp he).1
    rw [he, if_pos rfl, if_pos hlt, Option.map_some, if_pos (by simp [hname]), hname]
  · cases hj : w.waits[j]? with
    | none => simp [hjk]
    | some e' =>
      have hne : e'.1 ≠ numbered "wait" k := fun heq =>
        hjk (numbered_inj (heq.symm.trans (h.names j e' hj)))
      simp [hjk, hne]

/-- A wait that is asked for is the last one. -/
theorem IsSound.set_length (h : w.IsSound) (p : WaitPhase τ) :
    Waits.set w.waits (numbered "wait" w.waits.length) p =
      w.waits ++ [(numbered "wait" w.waits.length, p)] := by
  have hany : ¬(w.waits.any (·.1 == numbered "wait" w.waits.length) = true) := by
    rw [List.any_eq_true]
    rintro ⟨e, he, hname⟩
    obtain ⟨j, hj⟩ := List.mem_iff_getElem?.mp he
    have hlt := (List.getElem?_eq_some_iff.mp hj).1
    rw [h.names j e hj, beq_iff_eq] at hname
    exact absurd (numbered_inj hname) (Nat.ne_of_lt hlt)
  rw [Waits.set, if_neg hany]

/-- **Cancelling** is a turn. -/
theorem IsSound.cancel_eq_turn (h : w.IsSound) (k : ℕ) :
    w.cancel (numbered "wait" k) = w.turn cancelPhase k := by
  rw [cancel, h.lookup, Waits.turn, phase?]
  cases hk : w.waits[k]? with
  | none => rfl
  | some e =>
    obtain ⟨name, p⟩ := e
    have hset := h.set hk
    have hsame : w.waits.set k (name, p) = w.waits := by
      obtain ⟨hlt, hget⟩ := List.getElem?_eq_some_iff.mp hk
      rw [← hget, List.set_getElem_self]
    cases p with
    | ended how => simp [cancelPhase, hsame]
    | asked | waiting | answered | cancelling => simp [cancelPhase, hset]

/-! ### Every move keeps the waits sound -/

theorem IsSound.ask (h : w.IsSound) (tag substring : String) (timeout : Option τ) :
    (w.ask (numbered "wait" w.waits.length) tag substring timeout).IsSound := by
  rw [Waits.ask, h.set_length]
  refine ⟨h.watchful, fun k e hk => ?_, ?_⟩
  · rw [List.getElem?_append] at hk
    split at hk
    · exact h.names k e hk
    · next hlt =>
      obtain ⟨hzero, rfl⟩ : k - w.waits.length = 0 ∧ e = _ := by
        simpa [List.getElem?_singleton, eq_comm] using hk
      rw [show k = w.waits.length by omega]
  · have hsame :
        tickets (w.waits ++ [(numbered "wait" w.waits.length, .asked tag substring timeout)]) =
        tickets w.waits := by
      simp [tickets, WaitPhase.ticket?]
    exact hsame ▸ h.registered

/-- The waits after an update. -/
theorem IsSound.publish_eq (h : w.IsSound) (raises : Callback → Bool) (actions : List Action)
    (aliases : AliasTable) : w.publish raises actions aliases = (w.update actions aliases).1 := by
  have hsame := Output.publish_eq_update h.watchful.tickets raises actions aliases
  rw [publish, update, ← hsame]

theorem ticket?_afterAnswers (answers : List (ℕ × Source)) (p : WaitPhase τ) :
    (afterAnswers answers p).ticket? = p.ticket?.filter fun t => (answers.lookup t).isNone := by
  cases p with
  | waiting ticket deadline =>
    rw [afterAnswers, WaitPhase.ticket?, Option.filter_some]
    cases answers.lookup ticket <;> rfl
  | asked | answered | cancelling | ended => rfl

theorem IsSound.update (h : w.IsSound) (actions : List Action) (aliases : AliasTable) :
    (w.update actions aliases).1.IsSound := by
  refine ⟨h.watchful.update actions aliases, fun k e hk => ?_, ?_⟩
  · simp only [Waits.update, List.getElem?_map] at hk
    obtain ⟨e', he', rfl⟩ := Option.map_eq_some_iff.mp hk
    exact h.names k e' he'
  · -- of both lists the numbers that are answered go
    let goesOn (ticket : ℕ) : Bool :=
      ((w.output.update actions aliases).2.answered.lookup ticket).isNone
    have hwaits : tickets (w.update actions aliases).1.waits = (tickets w.waits).filter goesOn := by
      rw [tickets, tickets, List.filter_filterMap, Waits.update, List.filterMap_map]
      exact List.filterMap_congr fun e _ => ticket?_afterAnswers _ e.2
    have hwaiters : (w.output.update actions aliases).1.waiters.map (·.ticket) =
        (w.output.waiters.map (·.ticket)).filter goesOn := by
      rw [(h.watchful.update_eq actions aliases).1, List.filter_map]
      congr 1
      refine List.filter_congr fun x hx => ?_
      simp only [goesOn, Function.comp_apply, h.watchful.lookup_answered actions aliases hx]
    rw [hwaits]
    exact (h.registered.filter goesOn).trans (hwaiters ▸ .refl _)

section

variable [OfNat τ 0] [Add τ] [LE τ] [DecidableLE τ]

/-- **What a move does.** One wait has its turn, or the output is generated anew, or the programs
and the registered waiters stay and at most a wait is asked for. -/
theorem IsSound.perform_cases (h : w.IsSound) (m : Move τ) :
    (∃ f k, (∀ o p, Turned o p (f o p).1 (f o p).2) ∧ w.perform m = w.turn f k) ∨
      (∃ actions aliases, w.perform m = (w.update actions aliases).1) ∨
      ((w.perform m).output.sources = w.output.sources ∧
        (w.perform m).output.waiters = w.output.waiters ∧
        (w.perform m).output.catalog = w.output.catalog ∧ w.waits <+: (w.perform m).waits) := by
  cases m with
  | ask tag substring timeout =>
    refine .inr (.inr ⟨rfl, rfl, rfl, ?_⟩)
    simp only [Waits.perform, Waits.ask, h.set_length]
    exact List.prefix_append _ _
  | attend k => exact .inl ⟨_, k, turned_settlePhase _, rfl⟩
  | expire k => exact .inl ⟨_, k, turned_expirePhase _, rfl⟩
  | cancel k => exact .inl ⟨_, k, turned_cancelPhase, h.cancel_eq_turn k⟩
  | update actions aliases raises =>
    exact .inr (.inl ⟨actions, aliases, h.publish_eq raises actions aliases⟩)
  | pass | subscribe | unsubscribe | freeze => exact .inr (.inr ⟨rfl, rfl, rfl, List.prefix_rfl⟩)

theorem IsSound.perform (h : w.IsSound) (m : Move τ) : (w.perform m).IsSound := by
  cases m with
  | ask tag substring timeout => exact h.ask tag substring timeout
  | attend k => exact h.turn (turned_settlePhase _) k
  | expire k => exact h.turn (turned_expirePhase _) k
  | cancel k =>
    rw [Waits.perform, h.cancel_eq_turn]
    exact h.turn turned_cancelPhase k
  | pass seconds => exact ⟨h.watchful, h.names, h.registered⟩
  | update actions aliases raises =>
    rw [Waits.perform, h.publish_eq]
    exact h.update actions aliases
  | subscribe c => exact ⟨h.watchful.subscribe c, h.names, h.registered⟩
  | unsubscribe c => exact ⟨h.watchful.unsubscribe c, h.names, h.registered⟩
  | freeze => exact ⟨h.watchful.freeze, h.names, h.registered⟩

theorem IsSound.run (h : w.IsSound) (moves : List (Move τ)) : (w.run moves).IsSound := by
  induction moves generalizing w with
  | nil => exact h
  | cons m rest ih => exact ih (h.perform m)

/-- **No language comes or goes.** -/
theorem IsSound.isSome_source? (h : w.IsSound) (m : Move τ) (tag : String) :
    ((w.perform m).output.source? tag).isSome = (w.output.source? tag).isSome := by
  have hcatalog : (w.perform m).output.catalog = w.output.catalog := by
    obtain ⟨f, k, hf, hm⟩ | ⟨actions, aliases, hm⟩ | ⟨-, -, hm, -⟩ := h.perform_cases m
    · rw [hm, Waits.turn]
      split
      · rfl
      · exact (hf _ _).catalog
    · rw [hm]
      exact Output.catalog_update _ _ _
    · exact hm
  rw [(h.perform m).watchful.isSome_source?, h.watchful.isSome_source?, hcatalog]

end

/-! ### The story of a wait -/

/-- **The story of a wait** for a text in the program of a language: it is what follows from the
programs that it has seen, the last of which is the present one. While it is waiting it has a
waiter. -/
structure Story (w : Waits τ) (k : ℕ) (tag substring : String) (seen : List Source) : Prop where
  /-- The programs are of its language. -/
  tagged : ∀ s ∈ seen, s.tag = tag
  /-- It has seen the present program. -/
  current : seen.getLast? = w.output.source? tag
  /-- What has become of it. -/
  phase : ∃ p, w.phase? k = some p ∧ p.Fits substring seen
  /-- Its waiter is registered. -/
  registered : ∀ t d, w.phase? k = some (.waiting t d) → ⟨t, tag, substring⟩ ∈ w.output.waiters

section

variable {w' : Waits τ} {tag substring : String} {seen : List Source}

theorem tag_of_mem_program {s : Source} (h : s ∈ w.program tag) : s.tag = tag :=
  Output.tag_of_source? (Option.mem_toList.mp h)

theorem getLast?_program : (w.program tag).getLast? = w.output.source? tag := by
  rw [program]
  cases w.output.source? tag <;> rfl

/-- **A wait has begun.** -/
theorem Began.story {o : Output} {p : WaitPhase τ} (h : Began o tag substring w.output p)
    (hphase : w.phase? k = some p) : w.Story k tag substring (w.program tag) := by
  have hsource : w.output.source? tag = o.source? tag := by
    rw [Output.source?, Output.source?, (Turned.begins none h).sources]
  have hfits : p.Fits substring (o.source? tag).toList ∧
      ∀ t d, p = .waiting t d → ⟨t, tag, substring⟩ ∈ w.output.waiters := by
    generalize w.output = o' at h
    cases h with
    | refused e habsent => simp [WaitPhase.Fits, habsent]
    | ready hs hthere => simp [WaitPhase.Fits, hs, hthere]
    | waits hs hnew deadline => simp [WaitPhase.Fits, hs, hnew, Output.register]
    | tooLate hs hnew => simp [WaitPhase.Fits]
  refine ⟨fun s hs => tag_of_mem_program hs, getLast?_program, ⟨p, hphase, ?_⟩, fun t d ht => ?_⟩
  · rw [program, hsource]
    exact hfits.1
  · exact hfits.2 t d (Option.some.inj (hphase.symm.trans ht))

section

variable [OfNat τ 0] [Add τ] [LE τ] [DecidableLE τ]

theorem story_attend {timeout : Option τ} (h : w.phase? k = some (.asked tag substring timeout)) :
    (w.perform (.attend k)).Story k tag substring ((w.perform (.attend k)).program tag) := by
  obtain ⟨name, hk⟩ := phase?_eq_some.mp h
  have hlt := (List.getElem?_eq_some_iff.mp hk).1
  have hperform : w.perform (.attend k) =
      { w with
        output := (begin_ w.output w.now tag substring timeout).1
        waits := w.waits.set k (name, (begin_ w.output w.now tag substring timeout).2) } := by
    simp only [Waits.perform, Waits.turn, hk, settlePhase]
  rw [hperform]
  exact Began.story (began_begin w.output w.now tag substring timeout) (by simp [phase?, hlt])

/-- A wait that has seen no program sees none. -/
theorem Story.program_eq_nil (h : w.Story k tag substring seen) (hw : w.IsSound) (m : Move τ)
    (hseen : seen = []) : (w.perform m).program tag = [] := by
  have hnone : (w.output.source? tag).isSome = false := by
    rw [← h.current, hseen]
    rfl
  rw [← hw.isSome_source? m tag, Option.isSome_eq_false_iff, Option.isNone_iff_eq_none] at hnone
  rw [program, hnone, Option.toList_none]

/-- The story goes on with a phase that fits. -/
theorem Story.next (h : w.Story k tag substring seen) (hw : w.IsSound) {m : Move τ}
    {p : WaitPhase τ} (hphase : (w.perform m).phase? k = some p)
    (hfits : p.Fits substring (seen ++ (w.perform m).program tag))
    (hregistered : ∀ t d, p = .waiting t d →
      ⟨t, tag, substring⟩ ∈ (w.perform m).output.waiters) :
    (w.perform m).Story k tag substring (seen ++ (w.perform m).program tag) where
  tagged s hs := (List.mem_append.mp hs).elim (h.tagged s) tag_of_mem_program
  current := by
    rw [List.getLast?_append, getLast?_program]
    cases hnow : (w.perform m).output.source? tag with
    | some s => rfl
    | none =>
      have habsent := hw.isSome_source? m tag
      rw [hnow, ← h.current] at habsent
      simpa using habsent.symm
  phase := ⟨p, hphase, hfits⟩
  registered t d ht := hregistered t d (Option.some.inj (hphase.symm.trans ht))

/-- The story goes on as it was, while the program is the same. -/
theorem Story.same (h : w.Story k tag substring seen) (hw : w.IsSound) {m : Move τ}
    {p : WaitPhase τ} (hfits : p.Fits substring seen) (hphase : (w.perform m).phase? k = some p)
    (hsources : (w.perform m).output.sources = w.output.sources)
    (hregistered : ∀ t d, p = .waiting t d →
      ⟨t, tag, substring⟩ ∈ (w.perform m).output.waiters) :
    (w.perform m).Story k tag substring (seen ++ (w.perform m).program tag) := by
  refine h.next hw hphase (hfits.append (h.program_eq_nil hw m) fun hwaiting s hs => ?_) hregistered
  -- the present program has been seen
  have hmem : s ∈ seen := by
    rw [program, Output.source?, hsources, ← Output.source?, ← h.current, Option.mem_toList] at hs
    exact List.mem_of_getLast? hs
  cases p with
  | waiting t d => exact hfits s hmem
  | asked | answered | cancelling | ended => exact absurd rfl hwaiting

/-- **A wait has its turn**, or another one has. -/
theorem Story.turn (h : w.Story k tag substring seen) (hw : w.IsSound) {m : Move τ} {j : ℕ}
    {f : Output → WaitPhase τ → Output × WaitPhase τ}
    (hf : ∀ o p, Turned o p (f o p).1 (f o p).2) (hm : w.perform m = w.turn f j) :
    (w.perform m).Story k tag substring (seen ++ (w.perform m).program tag) := by
  obtain ⟨p, hp, hfits⟩ := h.phase
  have hregistered (t : ℕ) (d : Option τ) (hpt : p = .waiting t d) :
      ⟨t, tag, substring⟩ ∈ w.output.waiters :=
    h.registered t d (hpt ▸ hp)
  obtain ⟨name, hk⟩ := phase?_eq_some.mp hp
  rw [Waits.turn] at hm
  split at hm
  · exact h.same hw hfits (by rw [hm]; exact hp) (by rw [hm]) (by rw [hm]; exact hregistered)
  · next name' q hj =>
    have hturned := hf w.output q
    have hsources : (w.perform m).output.sources = w.output.sources := by
      rw [hm]
      exact hturned.sources
    by_cases hjk : j = k
    · subst hjk
      obtain ⟨rfl, rfl⟩ := Prod.mk.inj (Option.some.inj (hj.symm.trans hk))
      have hlt := (List.getElem?_eq_some_iff.mp hk).1
      have hphase : (w.perform m).phase? j = some (f w.output q).2 := by
        rw [hm]
        simp [phase?, hlt]
      obtain ⟨hfits', hwaiting⟩ := hturned.fits hfits
      refine h.same hw hfits' hphase hsources fun t d hpt => ?_
      obtain ⟨hpt, hsame⟩ := hwaiting t d hpt
      rw [hm, hsame]
      exact hregistered t d hpt
    · have hphase : (w.perform m).phase? k = some p := by
        rw [hm]
        simp [phase?, List.getElem?_set_ne hjk, hk]
      refine h.same hw hfits hphase hsources fun t d hpt => ?_
      rw [hm]
      refine hturned.mem_waiters hw.watchful (hregistered t d hpt) fun hticket => hjk ?_
      obtain ⟨d', rfl⟩ := WaitPhase.ticket?_eq_some.mp hticket
      exact hw.number_eq (phase?_eq_some.mpr ⟨_, hj⟩) (hpt ▸ hp)

/-- **The output is generated anew.** -/
theorem Story.update (h : w.Story k tag substring seen) (hw : w.IsSound) {m : Move τ}
    {actions : List Action} {aliases : AliasTable}
    (hm : w.perform m = (w.update actions aliases).1) :
    (w.perform m).Story k tag substring (seen ++ (w.perform m).program tag) := by
  obtain ⟨p, hp, hfits⟩ := h.phase
  have hnone := h.program_eq_nil hw m
  have hphase : (w.perform m).phase? k =
      some (afterAnswers (w.output.update actions aliases).2.answered p) := by
    obtain ⟨name, hk⟩ := phase?_eq_some.mp hp
    rw [hm]
    simp [phase?, Waits.update, hk]
  have hprogram : (w.perform m).program tag =
      ((w.output.update actions aliases).1.source? tag).toList := by
    rw [hm]
    rfl
  cases p with
  | waiting t d =>
    have hx := h.registered t d hp
    have hanswer := hw.watchful.lookup_answered actions aliases hx
    rw [afterAnswers, hanswer] at hphase
    cases hlook :
      Output.answer? (w.output.update actions aliases).1.sources ⟨t, tag, substring⟩ with
    | none =>
      rw [hlook] at hphase
      refine h.next hw hphase (hfits.append hnone fun _ s hs => ?_) fun t' d' hpt => ?_
      · rw [hprogram, Option.mem_toList] at hs
        exact Output.answer?_eq_none.mp hlook s hs
      · cases hpt
        rw [hm]
        exact hw.watchful.mem_waiters_update.mpr ⟨hx, hlook⟩
    | some s =>
      rw [hlook] at hphase
      obtain ⟨hs, hthere⟩ := Output.answer?_eq_some.mp hlook
      refine h.next hw hphase ?_ fun t' d' hpt => by cases hpt
      have hbefore : seen.find? (fun s => Text.contains s.text substring) = none :=
        List.find?_eq_none.mpr fun s hs => by simp [hfits s hs]
      rw [hprogram, Output.source?, hs]
      simp [WaitPhase.Fits, List.find?_append, hbefore, hthere]
  | asked | answered | cancelling | ended =>
    exact h.next hw hphase (hfits.append hnone fun hwaiting => absurd rfl hwaiting)
      fun t' d' hpt => by cases hpt

/-- **The story goes on.** -/
theorem Story.perform (h : w.Story k tag substring seen) (hw : w.IsSound) (m : Move τ) :
    (w.perform m).Story k tag substring (seen ++ (w.perform m).program tag) := by
  obtain ⟨f, j, hf, hm⟩ | ⟨actions, aliases, hm⟩ | ⟨hsources, hwaiters, -, hprefix⟩ :=
    hw.perform_cases m
  · exact h.turn hw hf hm
  · exact h.update hw hm
  · obtain ⟨p, hp, hfits⟩ := h.phase
    obtain ⟨name, hk⟩ := phase?_eq_some.mp hp
    obtain ⟨more, hmore⟩ := hprefix
    have hphase : (w.perform m).phase? k = some p := by
      rw [phase?, ← hmore, List.getElem?_append_left (List.getElem?_eq_some_iff.mp hk).1, hk]
      rfl
    exact h.same hw hfits hphase hsources fun t d hpt => hwaiters ▸ h.registered t d (hpt ▸ hp)

theorem seen_cons (w : Waits τ) (tag : String) (m : Move τ) (rest : List (Move τ)) :
    w.seen tag (m :: rest) = w.program tag ++ (w.perform m).seen tag rest := rfl

/-- **The story of a run.** -/
theorem Story.run (seen : List Source) (h : w.Story k tag substring (seen ++ w.program tag))
    (hw : w.IsSound) (moves : List (Move τ)) :
    (w.run moves).Story k tag substring (seen ++ w.seen tag moves) := by
  induction moves generalizing w seen with
  | nil => exact h
  | cons m rest ih =>
    rw [seen_cons, ← List.append_assoc]
    exact ih _ (h.perform hw m) (hw.perform m)

end

end

/-! ### Runs -/

section

variable [OfNat τ 0] [Add τ] [LE τ] [DecidableLE τ]

/-- **A wait is answered** by the update that puts its text there. -/
theorem Story.answered {tag substring : String} {seen : List Source}
    (h : w.Story k tag substring seen) (hw : w.IsSound) {t : ℕ} {d : Option τ}
    (hwaiting : w.phase? k = some (.waiting t d)) {actions : List Action} {aliases : AliasTable}
    {raises : Callback → Bool} {s : Source}
    (hs : (w.perform (.update actions aliases raises)).output.source? tag = some s)
    (hthere : Text.contains s.text substring = true) :
    (w.perform (.update actions aliases raises)).phase? k = some (.answered s) := by
  obtain ⟨name, hk⟩ := phase?_eq_some.mp hwaiting
  rw [Waits.perform, hw.publish_eq] at hs ⊢
  have hanswer := hw.watchful.lookup_answered actions aliases
    (h.registered t d hwaiting)
  have hfound : Output.answer? (w.output.update actions aliases).1.sources ⟨t, tag, substring⟩ =
      some s := Output.answer?_eq_some.mpr ⟨hs, hthere⟩
  rw [hfound] at hanswer
  simp [phase?, Waits.update, hk, afterAnswers, hanswer]

/-- **No wake-up is lost.** Whatever is done with the waits on an output, and whatever callbacks
raise:

* no waiter is registered whose text is in the present program of its language;
* the registered waiters are those of the waits that are waiting, each once, so no wait that has its
  answer, has run out of time or was cancelled has left one;
* from when a wait takes its first turn on, it has a story: when it has an answer, this is the first
  program of its language that holds its text, of those that there have been since; while it is
  waiting there has been none, and the next update that puts the text there is the one that answers
  it. -/
theorem run_waits (c : Catalog) (now : τ) (moves : List (Move τ)) :
    let w := (start c now).run moves
    (∀ x ∈ w.output.waiters, ∀ s, w.output.source? x.tag = some s →
        Text.contains s.text x.substring = false) ∧
      (tickets w.waits).Perm (w.output.waiters.map (·.ticket)) ∧ (tickets w.waits).Nodup ∧
      ∀ before k after tag substring timeout, moves = before ++ .attend k :: after →
        ((start c now).run before).phase? k = some (.asked tag substring timeout) →
        w.Story k tag substring
            (((start c now).run (before ++ [.attend k])).seen tag after) ∧
          ∀ t d actions aliases raises s, w.phase? k = some (.waiting t d) →
            (w.perform (.update actions aliases raises)).output.source? tag = some s →
            Text.contains s.text substring = true →
            (w.perform (.update actions aliases raises)).phase? k = some (.answered s) := by
  intro w
  have hw : w.IsSound := (isSound_start c now).run moves
  refine ⟨fun x hx s hs => Output.answer?_eq_none.mp (hw.watchful.pending x hx) s hs, hw.registered,
    hw.registered.nodup_iff.mpr hw.watchful.tickets, ?_⟩
  rintro before k after tag substring timeout rfl hasked
  have hbefore : ((start c now).run before).IsSound := (isSound_start c now).run before
  have hstory : w.Story k tag substring
      (((start c now).run (before ++ [.attend k])).seen tag after) := by
    have hrun : w = (((start c now).run before).perform (.attend k)).run after := by
      rw [← run_cons, ← run_append]
    rw [hrun, run_append]
    exact Story.run [] (story_attend hasked) (hbefore.perform _) after
  exact ⟨hstory, fun t d actions aliases raises s hwaiting hs hthere =>
    hstory.answered hw hwaiting hs hthere⟩

end

/-- Two waits for the same text: one runs out of time, the other is answered, although a callback
raises something. -/
example :
    let c : Catalog := ⟨[⟨"t", "T", "", fun actions _ => if actions.isEmpty then "a" else "ab"⟩]⟩
    let w : Waits ℕ := (start c 0).run
      [.ask "t" "b" (some 2), .attend 0, .ask "t" "b" none, .subscribe ⟨"f", false⟩, .attend 1,
        .update [] {} fun _ => true, .pass 3, .expire 0, .expire 1,
        .update [{ kind := .click, page := "page" }] {} fun _ => true, .attend 1]
    w.waits.map (·.2) = [.ended .timedOut, .ended (.answered ⟨"t", "T", "ab"⟩)] ∧
      w.output.waiters = [] := by
  decide +kernel

end Waits

end Scribe
