import ClassroomCpu.Proofs.Assembly.Assembler

/-!
# Programs that are built alike

Two programs may differ in lines that do nothing, and in how their lines are
written.  If the passes treat corresponding lines alike they end alike: the same
bytes lie at the same addresses, and the problems are of the same kind, on
corresponding lines.
-/

namespace ClassroomCpu

/-! ## Renumbered source maps -/

/-- A source map is another one with its lines renumbered. -/
structure SourceMap.Renumbered (place : Nat → Nat) (map other : SourceMap) : Prop where
  lines : ∀ address, other.line? address = (map.line? address).map place
  addresses : ∀ line, other.address? (place line) = map.address? line
  /-- The lines without a counterpart gave no value. -/
  nothing : ∀ line, (∀ earlier, place earlier ≠ line) → other.address? line = none

namespace SourceMap.Renumbered

variable {place : Nat → Nat} {map other : SourceMap}

theorem empty (place : Nat → Nat) : Renumbered place .empty .empty where
  lines _ := by simp
  addresses _ := by simp
  nothing _ _ := by simp

theorem insert (renumbered : Renumbered place map other) (injective : Function.Injective place)
    (address line : Nat) :
    Renumbered place (map.insert address line) (other.insert address (place line)) where
  lines later := by
    rw [line?_insert, line?_insert, renumbered.lines]
    split <;> rfl
  addresses earlier := by
    simp only [address?_insert, renumbered.addresses, injective.eq_iff]
  nothing later unknown := by
    rw [address?_insert, if_neg (unknown line), renumbered.nothing later unknown]

end SourceMap.Renumbered

namespace Assembly

variable {arch : Architecture} {Description : Type} {describe : Problem → Description}
  {place : Nat → Nat} {change : SourceLine → SourceLine}

/-! ## Outcomes -/

/-- Both give related results, or both fail with the same fault or problems of one description. -/
inductive Outcome.Alike {α β : Type} (describe : Problem → Description) (related : α → β → Prop) :
    Outcome α → Outcome β → Prop where
  | ok {result : α} {other : β} (same : related result other) :
      Alike describe related (.ok result) (.ok other)
  | problem {problem other : Problem} (same : describe problem = describe other) :
      Alike describe related (reject problem) (reject other)
  | fault (fault : Fault) : Alike describe related (.error (.fault fault)) (.error (.fault fault))

namespace Outcome.Alike

variable {α β γ δ : Type} {related : α → β → Prop} {later : γ → δ → Prop} {first : Outcome α}
  {second : Outcome β}

theorem refl (outcome : Outcome α) : Alike describe Eq outcome outcome := by
  cases outcome with
  | ok result => exact .ok rfl
  | error failure =>
      cases failure with
      | problem problem => exact .problem rfl
      | fault fault => exact .fault fault

/-- The ways in which two outcomes with the same results are alike. -/
theorem cases_eq {other : Outcome α} (alike : Alike describe Eq first other) :
    (∃ result, first = .ok result ∧ other = .ok result) ∨
      (∃ problem otherProblem, first = reject problem ∧ other = reject otherProblem ∧
        describe problem = describe otherProblem) ∨
      ∃ fault, first = .error (.fault fault) ∧ other = .error (.fault fault) := by
  cases alike with
  | ok same => exact .inl ⟨_, rfl, congrArg _ same.symm⟩
  | problem same => exact .inr (.inl ⟨_, _, rfl, rfl, same⟩)
  | fault fault => exact .inr (.inr ⟨fault, rfl, rfl⟩)

theorem bind (alike : Alike describe related first second) {next : α → Outcome γ}
    {otherNext : β → Outcome δ} (follows : ∀ result other, related result other →
      Alike describe later (next result) (otherNext other)) :
    Alike describe later (first >>= next) (second >>= otherNext) := by
  cases alike with
  | ok same => exact follows _ _ same
  | problem same => exact .problem same
  | fault fault => exact .fault fault

/-- What goes on with the same result may go on in two ways that end alike. -/
theorem bind_same {other : Outcome α} (alike : Alike describe Eq first other) {next : α → Outcome γ}
    {otherNext : α → Outcome δ}
    (follows : ∀ result, Alike describe later (next result) (otherNext result)) :
    Alike describe later (first >>= next) (other >>= otherNext) :=
  alike.bind fun result _ same => same ▸ follows result

theorem map (alike : Alike describe related first second) {change : α → γ} {otherChange : β → δ}
    (keeps : ∀ result other, related result other → later (change result) (otherChange other)) :
    Alike describe later (first.map change) (second.map otherChange) := by
  cases alike with
  | ok same => exact .ok (keeps _ _ same)
  | problem same => exact .problem same
  | fault fault => exact .fault fault

/-- Steps over corresponding elements of two lists that end alike make folds that end alike. -/
theorem foldlM {State : Type} {step : State → α → Outcome State}
    {otherStep : State → β → Outcome State} {change : α → β}
    (follows : ∀ state element,
      Alike describe Eq (step state element) (otherStep state (change element)))
    (state : State) (list : List α) :
    Alike describe Eq (list.foldlM step state) ((list.map change).foldlM otherStep state) := by
  induction list generalizing state with
  | nil => exact .ok rfl
  | cons element list induction =>
      rw [List.map_cons, List.foldlM_cons, List.foldlM_cons]
      exact (follows state element).bind_same induction

end Outcome.Alike

/-! ## Lines -/

/-- The line on which nothing stands. -/
def SourceLine.blank : SourceLine :=
  ⟨none, ""⟩

@[simp] theorem Layout.treatLine_blank (layout : Layout arch) :
    layout.treatLine .blank = (layout, .ok ()) := by
  simp [treatLine, treatStatement, SourceLine.blank]

@[simp] theorem Image.treatLine_blank (labels : LabelTable) (number : Nat) (image : Image arch) :
    Image.treatLine labels number .blank image = (image, .ok ()) := by
  simp [treatLine, SourceLine.blank]

/--
The lines of another program, from a number on: the changed lines of the first
one at their new places, and lines between them on which nothing stands.
-/
inductive Aligned (change : SourceLine → SourceLine) (place : Nat → Nat) :
    Nat → Nat → List SourceLine → List SourceLine → Prop where
  | nil (number otherNumber : Nat) : Aligned change place number otherNumber [] []
  | line {number otherNumber : Nat} {lines others : List SourceLine} (line : SourceLine)
      (placed : place number = otherNumber)
      (rest : Aligned change place (number + 1) (otherNumber + 1) lines others) :
      Aligned change place number otherNumber (line :: lines) (change line :: others)
  | blank {number otherNumber : Nat} {lines others : List SourceLine}
      (rest : Aligned change place number (otherNumber + 1) lines others) :
      Aligned change place number otherNumber lines (.blank :: others)

/-- Lines that are all changed stand where they stood. -/
theorem aligned_map (change : SourceLine → SourceLine) (lines : List SourceLine) (number : Nat) :
    Aligned change id number number lines (lines.map change) := by
  induction lines generalizing number with
  | nil => exact .nil number number
  | cons line lines induction => exact .line line rfl (induction (number + 1))

/-! ## Passes -/

/-- Two passes end with related states, and with problems of one kind on corresponding lines. -/
structure PassResult.Alike {State Other : Type} (describe : Problem → Description)
    (place : Nat → Nat) (related : State → Other → Prop) (pass : PassResult State)
    (other : PassResult Other) : Prop where
  state : related pass.state other.state
  errors : other.errors.map (fun error => (error.line, describe error.problem)) =
    pass.errors.map fun error => (place error.line, describe error.problem)
  fault : other.fault = pass.fault

/-- Passes that treat corresponding lines alike end alike. -/
theorem passLines_alike {State Other : Type} {related : State → Other → Prop}
    {treat : Nat → SourceLine → State → State × Outcome Unit}
    {treatOther : Nat → SourceLine → Other → Other × Outcome Unit}
    (blank : ∀ number state, treatOther number .blank state = (state, .ok ()))
    {number otherNumber : Nat} {lines others : List SourceLine}
    (aligned : Aligned change place number otherNumber lines others)
    (follows : ∀ line ∈ lines, ∀ number state other, related state other →
      related (treat number line state).1 (treatOther (place number) (change line) other).1 ∧
        Outcome.Alike describe Eq (treat number line state).2
          (treatOther (place number) (change line) other).2)
    {state : State} {other : Other} (start : related state other) :
    (passLines treat state number lines).Alike describe place related
      (passLines treatOther other otherNumber others) := by
  induction aligned generalizing state other with
  | nil => exact ⟨start, rfl, rfl⟩
  | blank rest induction =>
      simp only [passLines, blank]
      exact induction follows start
  | @line number _ lines others line placed rest induction =>
      subst placed
      obtain ⟨next, outcomes⟩ := follows line (by simp) number state other start
      rcases treated : treat number line state with ⟨after, outcome⟩
      rcases treatedOther : treatOther (place number) (change line) other with
        ⟨otherAfter, otherOutcome⟩
      rw [treated, treatedOther] at next outcomes
      have further := induction (fun line member => follows line (by simp [member])) next
      cases outcomes with
      | ok same => simpa only [passLines, treated, treatedOther] using further
      | @problem problem otherProblem same =>
          simp only [passLines, treated, treatedOther]
          refine ⟨further.state, ?_, further.fault⟩
          rw [List.map_cons, List.map_cons, further.errors, same]
      | fault fault =>
          simp only [passLines, treated, treatedOther]
          exact ⟨next, rfl, rfl⟩

/-! ## The second pass -/

/-- Two images are the same but for the numbers of the lines. -/
structure Image.Renumbered (place : Nat → Nat) (image other : Image arch) : Prop where
  cursor : other.cursor = image.cursor
  memory : other.memory = image.memory
  sourceMap : image.sourceMap.Renumbered place other.sourceMap

namespace Image.Renumbered

variable {image other : Image arch} (injective : Function.Injective place)
include injective

theorem putFrom (renumbered : Renumbered place image other) (line address : Nat)
    (bytes : List UInt8) :
    Renumbered place (image.putFrom line address bytes)
      (other.putFrom (place line) address bytes) := by
  induction bytes generalizing image other address with
  | nil => exact renumbered
  | cons byte bytes induction =>
      rw [putFrom_cons, putFrom_cons]
      apply induction
      refine ⟨renumbered.cursor, ?_, renumbered.sourceMap.insert injective _ _⟩
      dsimp only
      rw [renumbered.memory]

theorem put (renumbered : Renumbered place image other) (line : Nat) (bytes : List UInt8) :
    Renumbered place (image.put line bytes) (other.put (place line) bytes) := by
  unfold Image.put
  have next := renumbered.putFrom injective line image.cursor bytes
  rw [renumbered.cursor]
  refine ⟨?_, next.memory, next.sourceMap⟩
  dsimp only
  rw [next.cursor]

/-- A line of the second pass, and the same statement on another line that is written otherwise. -/
theorem treatLine (renumbered : Renumbered place image other) {line : SourceLine}
    (isEmpty : (change line).statement.isEmpty = line.statement.isEmpty)
    (effect : ∀ scope, Outcome.Alike describe Eq (statementEffect scope arch line.statement)
      (statementEffect scope arch (change line).statement))
    (labels : LabelTable) (number : Nat) :
    Renumbered place (Image.treatLine labels number line image).1
        (Image.treatLine labels (place number) (change line) other).1 ∧
      Outcome.Alike describe Eq (Image.treatLine labels number line image).2
        (Image.treatLine labels (place number) (change line) other).2 := by
  unfold Image.treatLine
  rw [isEmpty, renumbered.cursor]
  split
  · exact ⟨renumbered, .ok rfl⟩
  · rcases (effect ⟨.emit, labels, image.cursor⟩).cases_eq with
      ⟨effect, here, there⟩ | ⟨problem, other, here, there, same⟩ | ⟨fault, here, there⟩
    · rw [here, there]
      cases effect with
      | origin address => exact ⟨⟨rfl, renumbered.memory, renumbered.sourceMap⟩, .ok rfl⟩
      | data bytes => exact ⟨renumbered.put injective number bytes, .ok rfl⟩
    · rw [here, there]
      exact ⟨renumbered, .problem same⟩
    · rw [here, there]
      exact ⟨renumbered, .fault fault⟩

end Image.Renumbered

/-! ## Builds -/

/-- Two builds end with problems of one kind on corresponding lines, and with related tables. -/
structure Build.Alike (describe : Problem → Description) (place : Nat → Nat)
    (related : Layout arch → Layout arch → Prop) (relatedImage : Image arch → Image arch → Prop)
    (build other : Build arch) : Prop where
  errors : other.errors.map (fun error => (error.line, describe error.problem)) =
    build.errors.map fun error => (place error.line, describe error.problem)
  fault : other.fault = build.fault
  layout : related build.layout other.layout
  image : relatedImage build.image other.image

/-- Errors that correspond to each other are equally many. -/
theorem isEmpty_of_map_eq {errors others : List SourceError}
    (same : others.map (fun error => (error.line, describe error.problem)) =
      errors.map fun error => (place error.line, describe error.problem)) :
    others.isEmpty = errors.isEmpty := by
  cases errors <;> cases others <;> simp_all

theorem Build.Alike.succeeded {related : Layout arch → Layout arch → Prop}
    {relatedImage : Image arch → Image arch → Prop} {build other : Build arch}
    (alike : build.Alike describe place related relatedImage other) :
    other.succeeded = build.succeeded := by
  rw [Build.succeeded, Build.succeeded, alike.fault, isEmpty_of_map_eq alike.errors]

/-- Programs whose passes end alike are built alike. -/
theorem Build.alike_ofLines {related : Layout arch → Layout arch → Prop}
    {relatedImage : Image arch → Image arch → Prop}
    (labels : ∀ layout other, related layout other → other.labels = layout.labels)
    (start : relatedImage (Image.start arch) (Image.start arch))
    {lines others : List SourceLine}
    (first : (passLines (fun _ line layout => layout.treatLine line) (Layout.start arch) 0
        lines).Alike describe place related
      (passLines (fun _ line layout => layout.treatLine line) (Layout.start arch) 0 others))
    (second : ∀ labels, (passLines (Image.treatLine labels) (Image.start arch) 0 lines).Alike
        describe place relatedImage
      (passLines (Image.treatLine labels) (Image.start arch) 0 others)) :
    (ofLines arch lines).Alike describe place related relatedImage (ofLines arch others) := by
  unfold ofLines
  dsimp only
  rw [first.fault, isEmpty_of_map_eq first.errors]
  split
  · exact ⟨first.errors, rfl, first.state, start⟩
  · rw [labels _ _ first.state]
    have further := second (passLines (fun _ line layout => layout.treatLine line)
      (Layout.start arch) 0 lines).state.labels
    exact ⟨further.errors, further.fault, first.state, further.state⟩

end Assembly

end ClassroomCpu
