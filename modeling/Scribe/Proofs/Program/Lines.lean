import Scribe.Proofs.Program.Reading

/-!
# Lines of a program

What the lines of a program do, one after the other. Reading from the top, the pages that have been
declared outside of nested blocks are known, and each page that a line calls has to be known by
then: `Scribe.Program.LinesScoped` puts `Scribe.Program.ProperlyScoped` in this form, which goes
through a program piece by piece. An indented piece does what it did before, one level deeper.

The form is that of `Scribe.Program.ScopedFrom`, which takes lines, statements or actions alike.
-/

namespace Scribe.Program

/-! ### From the top -/

section

variable {α : Type} {calls declares : α → List String} {known more : List String}
  {items rest : List α}

/-- **Each called name is known**, when the names `known` are to begin with, and those that the
items declare from there on. -/
def ScopedFrom (calls declares : α → List String) (known : List String) : List α → Prop
  | [] => True
  | item :: rest => (∀ name ∈ calls item, name ∈ known) ∧
      ScopedFrom calls declares (known ++ declares item) rest

theorem scopedFrom_append :
    ScopedFrom calls declares known (items ++ rest) ↔ ScopedFrom calls declares known items ∧
      ScopedFrom calls declares (known ++ items.flatMap declares) rest := by
  induction items generalizing known with
  | nil => simp [ScopedFrom]
  | cons item items ih =>
    simp only [List.cons_append, ScopedFrom, ih, List.flatMap_cons, List.append_assoc, and_assoc]

/-- What is known to begin with matters only as far as names are called. -/
theorem scopedFrom_congr (h : ∀ item ∈ items, ∀ name ∈ calls item, name ∈ known ↔ name ∈ more) :
    ScopedFrom calls declares known items ↔ ScopedFrom calls declares more items := by
  induction items generalizing known more with
  | nil => rfl
  | cons item items ih =>
    refine and_congr (forall₂_congr fun name hname => h item List.mem_cons_self name hname) (ih ?_)
    intro other hother name hname
    rw [List.mem_append, List.mem_append,
      h other (List.mem_cons_of_mem _ hother) name hname]

/-- Each called name is known or declared by an item in front. -/
theorem scopedFrom_iff :
    ScopedFrom calls declares known items ↔ ∀ before item after, items = before ++ item :: after →
      ∀ name ∈ calls item, name ∈ known ++ before.flatMap declares := by
  induction items generalizing known with
  | nil => simp [ScopedFrom]
  | cons first rest ih =>
    rw [ScopedFrom, ih]
    constructor
    · rintro ⟨hfirst, hlater⟩ before item after hsplit name hname
      cases before with
      | nil =>
        obtain ⟨rfl, -⟩ := List.cons.inj hsplit
        simpa using hfirst name hname
      | cons b before =>
        obtain ⟨rfl, htail⟩ := List.cons.inj hsplit
        have hmem := hlater before item after htail name hname
        rwa [List.append_assoc, ← List.flatMap_cons] at hmem
    · intro h
      refine ⟨fun name hname => by simpa using h [] first rest rfl name hname, ?_⟩
      intro before item after hsplit name hname
      have hmem := h (first :: before) item after (by rw [hsplit]; rfl) name hname
      rwa [List.append_assoc, ← List.flatMap_cons]

/-- Items that call only names that they do not declare are scoped if those names are known. -/
theorem scopedFrom_iff_of_disjoint
    (h : ∀ name ∈ items.flatMap calls, name ∉ items.flatMap declares) :
    ScopedFrom calls declares known items ↔ ∀ name ∈ items.flatMap calls, name ∈ known := by
  rw [scopedFrom_iff]
  constructor
  · intro hall name hname
    obtain ⟨item, hitem, hcall⟩ := List.mem_flatMap.mp hname
    obtain ⟨before, after, hsplit⟩ := List.append_of_mem hitem
    refine (List.mem_append.mp (hall before item after hsplit name hcall)).resolve_right ?_
    intro hdeclared
    refine h name hname ?_
    rw [hsplit, List.flatMap_append]
    exact List.mem_append_left _ hdeclared
  · intro hall before item after hsplit name hname
    refine List.mem_append_left _ (hall name ?_)
    rw [hsplit, List.flatMap_append, List.flatMap_cons]
    exact List.mem_append_right _ (List.mem_append_left _ hname)

instance decidableScopedFrom (known : List String) :
    (items : List α) → Decidable (ScopedFrom calls declares known items)
  | [] => isTrue trivial
  | item :: rest =>
    have := decidableScopedFrom (known ++ declares item) rest
    inferInstanceAs (Decidable ((∀ name ∈ calls item, name ∈ known) ∧ _))

end

/-! ### What lines do -/

/-- The pages that lines call. -/
def calledIn (lines : List String) : List String :=
  lines.flatMap fun line => (read line).called.toList

/-- The variables that lines declare. -/
def declaredIn (lines : List String) : List String :=
  lines.flatMap fun line => (read line).declared

/-- The variables that lines declare no deeper than a margin. -/
def outsideIn (margin : ℕ) (lines : List String) : List String :=
  lines.flatMap fun line => if (read line).depth ≤ margin then (read line).declared else []

/-- The functions that lines define. -/
def definedIn (lines : List String) : List String :=
  lines.flatMap fun line => (read line).functions

section

variable {margin : ℕ} {known lines more : List String} {line page : String}

@[simp] theorem calledIn_nil : calledIn [] = [] := rfl

@[simp] theorem calledIn_cons :
    calledIn (line :: lines) = (read line).called.toList ++ calledIn lines := by
  simp [calledIn]

@[simp] theorem calledIn_append : calledIn (lines ++ more) = calledIn lines ++ calledIn more := by
  simp [calledIn]

@[simp] theorem declaredIn_nil : declaredIn [] = [] := rfl

@[simp] theorem declaredIn_cons :
    declaredIn (line :: lines) = (read line).declared ++ declaredIn lines := by
  simp [declaredIn]

@[simp] theorem declaredIn_append :
    declaredIn (lines ++ more) = declaredIn lines ++ declaredIn more := by
  simp [declaredIn]

@[simp] theorem definedIn_nil : definedIn [] = [] := rfl

@[simp] theorem definedIn_cons :
    definedIn (line :: lines) = (read line).functions ++ definedIn lines := by
  simp [definedIn]

@[simp] theorem definedIn_append :
    definedIn (lines ++ more) = definedIn lines ++ definedIn more := by
  simp [definedIn]

@[simp] theorem outsideIn_nil : outsideIn margin [] = [] := rfl

@[simp] theorem outsideIn_append :
    outsideIn margin (lines ++ more) = outsideIn margin lines ++ outsideIn margin more := by
  simp [outsideIn]

theorem outsideIn_cons :
    outsideIn margin (line :: lines) =
      (if (read line).depth ≤ margin then (read line).declared else []) ++
        outsideIn margin lines := by
  simp [outsideIn]

theorem mem_declaredIn_of_mem_outsideIn (h : page ∈ outsideIn margin lines) :
    page ∈ declaredIn lines := by
  obtain ⟨line, hline, hpage⟩ := List.mem_flatMap.mp h
  refine List.mem_flatMap.mpr ⟨line, hline, ?_⟩
  split at hpage
  · exact hpage
  · cases hpage

/-- **Each called page is known**, when the pages `known` are to begin with, and those that lines
declare outside of nested blocks from there on. -/
def LinesScoped (margin : ℕ) : List String → List String → Prop :=
  ScopedFrom (fun line => (read line).called.toList)
    fun line => if (read line).depth ≤ margin then (read line).declared else []

instance : Decidable (LinesScoped margin known lines) :=
  inferInstanceAs (Decidable (ScopedFrom _ _ known lines))

theorem linesScoped_append :
    LinesScoped margin known (lines ++ more) ↔
      LinesScoped margin known lines ∧ LinesScoped margin (known ++ outsideIn margin lines) more :=
  scopedFrom_append

/-- Lines that call only pages that they do not declare are scoped if those pages are known. -/
theorem linesScoped_iff_of_disjoint (h : ∀ page ∈ calledIn lines, page ∉ declaredIn lines) :
    LinesScoped margin known lines ↔ ∀ page ∈ calledIn lines, page ∈ known :=
  scopedFrom_iff_of_disjoint fun page hpage houtside =>
    h page hpage (mem_declaredIn_of_mem_outsideIn houtside)

/-- **Properly scoped** means that each called page is known, when none is to begin with. -/
theorem properlyScoped_iff : ProperlyScoped margin lines ↔ LinesScoped margin [] lines := by
  rw [LinesScoped, scopedFrom_iff]
  refine forall_congr' fun before => forall_congr' fun line => forall_congr' fun after =>
    forall_congr' fun _ => ?_
  simp only [Option.mem_toList, List.nil_append, List.mem_flatMap]
  refine forall₂_congr fun page _ => exists_congr fun earlier => and_congr_right fun _ => ?_
  by_cases hdepth : (read earlier).depth ≤ margin <;> simp [hdepth]

instance : Decidable (ProperlyScoped margin lines) :=
  decidable_of_iff _ properlyScoped_iff.symm

/-! ### Silent lines -/

theorem calledIn_of_silent (h : ∀ line ∈ lines, (read line).IsSilent) : calledIn lines = [] :=
  List.flatMap_eq_nil_iff.mpr fun line hline => by rw [(h line hline).1, Option.toList_none]

theorem declaredIn_of_silent (h : ∀ line ∈ lines, (read line).IsSilent) : declaredIn lines = [] :=
  List.flatMap_eq_nil_iff.mpr fun line hline => (h line hline).2.1

theorem definedIn_of_silent (h : ∀ line ∈ lines, (read line).IsSilent) : definedIn lines = [] :=
  List.flatMap_eq_nil_iff.mpr fun line hline => (h line hline).2.2

theorem linesScoped_of_silent (h : ∀ line ∈ lines, (read line).IsSilent) :
    LinesScoped margin known lines := by
  refine (linesScoped_iff_of_disjoint fun page hpage => ?_).mpr fun page hpage => ?_
  all_goals
    rw [calledIn_of_silent h] at hpage
    cases hpage

/-- A line that is given. -/
theorem silent_given {text : List Char} (hline : line = String.ofList text)
    (htext : readText text = (none, [], [])) : (read line).IsSilent := by
  rw [read, hline, String.toList_ofList, htext]
  exact ⟨rfl, rfl, rfl⟩

/-! ### Indents and ends of lines -/

theorem read_eq (line : String) :
    read line = ⟨(line.toList.takeWhile (· == ' ')).length, (readText line.toList).1,
      (readText line.toList).2.1, (readText line.toList).2.2⟩ := rfl

/-- An indent makes a line deeper. -/
theorem read_append_of_spaces {indent : String} (h : ∀ c ∈ indent.toList, c = ' ') :
    read (indent ++ line) = { read line with depth := indent.length + (read line).depth } := by
  have hdepth : (indent.toList ++ line.toList).takeWhile (· == ' ') =
      indent.toList ++ line.toList.takeWhile (· == ' ') :=
    List.takeWhile_append_of_pos fun c hc => by simp [h c hc]
  simp only [read_eq, String.toList_append, readText_spaces h, hdepth, List.length_append,
    String.length_toList]

/-- What ends a line changes nothing. -/
theorem read_append_of_isEnd {stop : String} (h : isEnd stop = true) :
    read (line ++ stop) = read line := by
  have hspace : ∀ c ∈ stop.toList, c ≠ ' ' := by
    intro c hc
    have := List.all_eq_true.mp h c hc
    simp only [Bool.and_eq_true, bne_iff_ne] at this
    exact this.2
  have hdepth : ((line.toList ++ stop.toList).takeWhile (· == ' ')).length =
      (line.toList.takeWhile (· == ' ')).length := by
    have hnone : stop.toList.takeWhile (· == ' ') = [] := by
      cases hstop : stop.toList with
      | nil => rfl
      | cons c rest =>
        have hc : c ≠ ' ' := hspace c (by simp [hstop])
        simp [hc]
    -- even a line of spaces is not made longer by what ends it
    rw [List.takeWhile_append]
    split
    · next hlength => rw [hnone, List.append_nil, hlength]
    · rfl
  simp only [read_eq, String.toList_append, readText_append_of_isEnd h, hdepth]

theorem map_read_endWith {stop : String} (h : isEnd stop = true) :
    (endWith stop lines).map read = lines.map read := by
  induction lines with
  | nil => rfl
  | cons line rest ih =>
    cases rest with
    | nil => simp [endWith, read_append_of_isEnd h]
    | cons second rest => simp [endWith, ← ih]

section

variable {indentation : String}

/-- A line behind an indent, unless it is empty, is the line itself but for its depth. -/
theorem read_indent (h : ∀ c ∈ indentation.toList, c = ' ') (line : String) :
    (if line.isEmpty then read line else read (indentation ++ line)) =
      { read line with
        depth := if line.isEmpty then 0 else indentation.length + (read line).depth } := by
  by_cases hempty : line.isEmpty = true
  · rw [if_pos hempty, if_pos hempty, String.isEmpty_iff.mp hempty]
    rfl
  · rw [if_neg hempty, if_neg hempty, read_append_of_spaces h]

theorem calledIn_indent (h : ∀ c ∈ indentation.toList, c = ' ') :
    calledIn (indent indentation lines) = calledIn lines := by
  rw [calledIn, calledIn, indent, List.flatMap_map]
  refine List.flatMap_congr fun line _ => ?_
  rw [apply_ite read, read_indent h]

theorem declaredIn_indent (h : ∀ c ∈ indentation.toList, c = ' ') :
    declaredIn (indent indentation lines) = declaredIn lines := by
  rw [declaredIn, declaredIn, indent, List.flatMap_map]
  refine List.flatMap_congr fun line _ => ?_
  rw [apply_ite read, read_indent h]

theorem definedIn_indent (h : ∀ c ∈ indentation.toList, c = ' ') :
    definedIn (indent indentation lines) = definedIn lines := by
  rw [definedIn, definedIn, indent, List.flatMap_map]
  refine List.flatMap_congr fun line _ => ?_
  rw [apply_ite read, read_indent h]

/-- What indented lines declare no deeper than their indent, they declared without any. -/
theorem outsideIn_indent (h : ∀ c ∈ indentation.toList, c = ' ') :
    outsideIn indentation.length (indent indentation lines) = outsideIn 0 lines := by
  rw [outsideIn, outsideIn, indent, List.flatMap_map]
  refine List.flatMap_congr fun line _ => ?_
  rw [apply_ite read, read_indent h]
  by_cases hempty : line.isEmpty = true
  · rw [String.isEmpty_iff.mp hempty]
    rfl
  · have hdepth : indentation.length + (read line).depth ≤ indentation.length ↔
        (read line).depth ≤ 0 := by
      omega
    simp only [hempty, Bool.false_eq_true, if_false, hdepth]

end

end

end Scribe.Program
