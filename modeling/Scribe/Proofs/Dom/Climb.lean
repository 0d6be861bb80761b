import Scribe.Dom.Identify
import Scribe.Proofs.Dom.Path

/-!
# The climb from an element

`Scribe.Snapshot.lineage` goes up from an element, parent by parent, and
`Scribe.Snapshot.pathStep` writes down the position of each. Both always have an answer. Whether
they ought to have one is another question, since a snapshot may be anything: references may be
shared, parents may be missing, and they may lead in a circle.

Here the climb is taken turn by turn, and everything that could go wrong is a **halt**
(`Scribe.Snapshot.Halt`): there is no element to begin with, an element is not to be found among its
siblings, or the turns are used up. Only the first one occurs
(`Scribe.Snapshot.climb_structuralPath?`), and the selector of an element makes up for it. Two facts
carry the proof:

* an element that a reference leads to is one of the elements, even if others share its reference,
  so it is one of its own siblings (`Scribe.Snapshot.mem_siblings_self`);
* each turn meets a reference that was not seen before, so there are no more turns than elements
  (`Scribe.Snapshot.unseen_lt`).
-/

namespace Scribe.Snapshot

/-- **What halts a climb.** -/
inductive Halt where
  /-- No element has the reference. -/
  | unknown (ref : String)
  /-- The element is not among its siblings. -/
  | unlisted (e : Element)
  /-- The turns are used up. -/
  | spent
  deriving Repr, DecidableEq

variable (s : Snapshot)

/-! ### Climbing turn by turn -/

/-- One step of the path. Where there are several siblings, the element is looked up among them. -/
def stepOf (e : Element) : Except Halt String :=
  if (s.siblings e).length > 1 then
    match (s.siblings e).idxOf? e with
    | some n => .ok s!"{e.tag}:nth-of-type({n + 1})"
    | none => .error (.unlisted e)
  else .ok e.tag

/-- **The climb** from an element, in so many turns at most: the steps on the way up. It is over
where there is no parent, and where a reference was seen before. -/
def climb : ℕ → List String → Option Element → Except Halt (List String)
  | _, _, none => .ok []
  | turns, seen, some e =>
    if seen.contains e.ref then .ok []
    else
      match turns with
      | 0 => .error .spent
      | turns + 1 => do
        let step ← s.stepOf e
        let above ← climb turns (e.ref :: seen) (e.parent.bind s.get?)
        return step :: above

/-- The path to a reference, by a climb of so many turns at most. -/
def climbTo (turns : ℕ) (ref : String) : Except Halt String :=
  match s.get? ref with
  | none => .error (.unknown ref)
  | some e => (s.climb turns [] (some e)).map fun steps => " > ".intercalate steps.reverse

/-- The selector of an element, where the path is found by a climb of so many turns at most. An
element that the snapshot does not hold is left with its tag; nothing else is made up for. -/
def identifyWithin (turns : ℕ) (testIdAttribute : String) (e : Element) : Except Halt Selector :=
  match s.byTestId testIdAttribute e <|> s.byRole e <|> s.byLabel e <|> s.byPlaceholder e
    <|> s.byText e <|> s.byAttributes e with
  | some selector => .ok selector
  | none =>
    match s.climbTo turns e.ref with
    | .ok path => .ok (.css path true)
    | .error (.unknown _) => .ok (.css e.tag true)
    | .error halt => .error halt

variable {s}

/-! ### Look-ups -/

/-- **An element is one of its siblings.** -/
theorem mem_siblings_self {e : Element} (he : e ∈ s.elements) : e ∈ s.siblings e :=
  mem_siblings_iff.mpr ⟨he, rfl, rfl⟩

/-- The look-up of an element among its siblings does not fail. -/
theorem stepOf_eq {e : Element} (he : e ∈ s.elements) : s.stepOf e = .ok (s.pathStep e) := by
  obtain ⟨n, hn⟩ := Option.isSome_iff_exists.mp (List.isSome_idxOf?.mpr (mem_siblings_self he))
  have hposition : (s.siblings e).idxOf e = n := by
    rw [List.idxOf_eq_getD_idxOf?, hn, Option.getD_some]
  rw [stepOf, hn, ← hposition, pathStep, siblings]
  split <;> rfl

theorem get?_eq_none_iff {ref : String} : s.get? ref = none ↔ ∀ x ∈ s.elements, x.ref ≠ ref := by
  rw [get?, List.getLast?_eq_none_iff, List.filter_eq_nil_iff]
  simp only [beq_iff_eq, ne_eq]

theorem contains_eq_isSome (ref : String) : s.contains ref = (s.get? ref).isSome := by
  rw [Bool.eq_iff_iff, contains, List.any_eq_true, ← Bool.not_eq_false, Option.isSome_eq_false_iff,
    Option.isNone_iff_eq_none, get?_eq_none_iff]
  simp

/-! ### The climb comes to its end -/

/-- The lineage of a reference, without the reason for its end. -/
theorem lineage_some (seen : List String) (ref : String) :
    s.lineage seen (some ref) =
      match s.get? ref with
      | none => []
      | some e =>
        if seen.contains e.ref then [] else e :: s.lineage (e.ref :: seen) e.parent := by
  rw [lineage]
  split
  · next hnone => rw [hnone]
  · next e he => simp only [he, dite_eq_ite]

theorem climb_none (turns : ℕ) (seen : List String) : s.climb turns seen none = .ok [] := by
  cases turns <;> rfl

theorem climb_of_seen {seen : List String} {e : Element} (hseen : seen.contains e.ref = true)
    (turns : ℕ) : s.climb turns seen (some e) = .ok [] := by
  cases turns <;> rw [climb, if_pos hseen]

/-- **A climb of as many turns as there are unseen elements is the lineage**, step by step. -/
theorem climb_eq {turns : ℕ} {seen : List String} {ref : Option String}
    (hturns : s.unseen seen ≤ turns) :
    s.climb turns seen (ref.bind s.get?) = .ok ((s.lineage seen ref).map s.pathStep) := by
  induction seen, ref using lineage.induct s generalizing turns with
  | case1 seen => rw [lineage_none, Option.bind_none, climb_none, List.map_nil]
  | case2 seen r hnone =>
    rw [lineage_some, Option.bind_some, hnone, climb_none, List.map_nil]
  | case3 seen r e he hseen =>
    simp only [lineage_some, Option.bind_some, he, climb_of_seen hseen, if_pos hseen, List.map_nil]
  | case4 seen r e he hseen hless ih =>
    cases turns with
    | zero => omega
    | succ turns =>
      have habove : s.climb turns (e.ref :: seen) (e.parent.bind s.get?) =
          .ok ((s.lineage (e.ref :: seen) e.parent).map s.pathStep) := ih (by omega)
      simp only [lineage_some, Option.bind_some, he, climb, if_neg hseen,
        stepOf_eq (mem_of_get? he), habove, List.map_cons]
      rfl

theorem climbTo_eq {turns : ℕ} (hturns : s.elements.length ≤ turns) (ref : String) :
    s.climbTo turns ref = (s.structuralPath? ref).elim (.error (.unknown ref)) .ok := by
  have hunseen : s.unseen [] ≤ turns := by
    rw [unseen]
    exact Nat.le_trans List.countP_le_length hturns
  have hclimb : s.climb turns [] ((some ref).bind s.get?) =
      .ok ((s.lineage [] (some ref)).map s.pathStep) := climb_eq hunseen
  rw [Option.bind_some] at hclimb
  rw [climbTo, structuralPath?, contains_eq_isSome]
  cases he : s.get? ref with
  | none => rfl
  | some e =>
    rw [he] at hclimb
    simp only [hclimb, Option.isSome_some, if_true, Option.elim_some]
    rfl

theorem identifyWithin_eq {turns : ℕ} (hturns : s.elements.length ≤ turns)
    (testIdAttribute : String) (e : Element) :
    s.identifyWithin turns testIdAttribute e = .ok (s.identify testIdAttribute e) := by
  rw [identifyWithin, identify, climbTo_eq hturns, byPath]
  split
  · next selector hselector => rw [hselector, Option.getD_some]
  · next hnone =>
    rw [hnone, Option.getD_none]
    cases s.structuralPath? e.ref <;> rfl

/-- **Every climb comes to its end, whatever the snapshot.** In as many turns as there are elements,
or more, it leads to the structural path of a reference; there is none only for a reference that no
element has. An element gets its selector even then. -/
theorem climb_structuralPath? (s : Snapshot) (spare : ℕ) :
    (∀ ref, s.climbTo (s.elements.length + spare) ref =
        (s.structuralPath? ref).elim (.error (.unknown ref)) .ok ∧
      (s.structuralPath? ref = none ↔ ∀ x ∈ s.elements, x.ref ≠ ref)) ∧
    ∀ testIdAttribute e, s.identifyWithin (s.elements.length + spare) testIdAttribute e =
      .ok (s.identify testIdAttribute e) := by
  have hturns : s.elements.length ≤ s.elements.length + spare := Nat.le_add_right _ _
  refine ⟨fun ref => ⟨climbTo_eq hturns ref, ?_⟩, fun key e => identifyWithin_eq hturns key e⟩
  rw [structuralPath?, contains_eq_isSome, ← get?_eq_none_iff]
  cases s.get? ref <;> simp

/-- Parents in a circle: the climb is over where it would meet the first element again. -/
example :
    let s : Snapshot := ⟨[{ ref := "e1", tag := "p", parent := some "e2" },
      { ref := "e2", tag := "div", parent := some "e1" }]⟩
    s.climbTo 2 "e1" = .ok "div > p" ∧ s.climbTo 1 "e1" = .error .spent := by
  decide +kernel

end Scribe.Snapshot
