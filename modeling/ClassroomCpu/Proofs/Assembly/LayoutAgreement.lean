import ClassroomCpu.Catalog.Neander
import ClassroomCpu.Proofs.Assembly.StatementShape

/-!
# The two passes agree on the layout

Both passes interpret the same lines, the first under the labels so far and the
second under all labels.  They put every line at the same place exactly if no
word that places bytes is read in two ways: as a number while memory is
reserved, and as a label at another address while bytes are emitted.
-/

namespace ClassroomCpu.Assembly

variable {arch : Architecture} {lines : List SourceLine}

/-! ## The states of both passes in front of a line -/

/-- What the first pass has found out in front of a line. -/
def layoutBefore (arch : Architecture) (lines : List SourceLine) (number : Nat) : Layout arch :=
  stateBefore (fun _ line layout => layout.treatLine line) (.start arch) lines number

/-- What the second pass has emitted in front of a line. -/
def imageBefore (arch : Architecture) (lines : List SourceLine) (number : Nat) : Image arch :=
  stateBefore (Image.treatLine (Build.ofLines arch lines).labels) (.start arch) lines number

/-- The cells that the first pass takes for the line with a number. -/
def reservedCells (arch : Architecture) (lines : List SourceLine) (number : Nat) :
    List (Fin arch.memorySize) :=
  match lines[number]? with
  | some line => lineCells ((layoutBefore arch lines number).scope line) arch line
  | none => []

/-- The cells that the second pass writes for the line with a number, in their order. -/
def emittedCells (arch : Architecture) (lines : List SourceLine) (number : Nat) :
    List (Fin arch.memorySize) :=
  match lines[number]? with
  | some line =>
      lineCells ⟨.emit, (Build.ofLines arch lines).labels, (imageBefore arch lines number).cursor⟩
        arch line
  | none => []

theorem lt_length_of_mem_emittedCells {cell : Fin arch.memorySize} {number : Nat}
    (member : cell ∈ emittedCells arch lines number) : number < lines.length := by
  rw [emittedCells] at member
  split at member
  · rename_i here
    exact (List.getElem?_eq_some_iff.mp here).1
  · exact absurd member (by simp)

/-- The layouts of both passes are the same. -/
structure LayoutAgreement (arch : Architecture) (lines : List SourceLine) : Prop where
  /-- Every line starts at the same place. -/
  cursor : ∀ number < lines.length,
    (layoutBefore arch lines number).cursor = (imageBefore arch lines number).cursor
  /-- Every line is given the cells that it takes. -/
  cells : ∀ number, reservedCells arch lines number = emittedCells arch lines number
  /-- Exactly the cells that were taken are written. -/
  reserved : ∀ cell, (Build.ofLines arch lines).layout.reserved.get cell = true ↔
    ∃ number, cell ∈ emittedCells arch lines number
  /-- No two lines write the same cell. -/
  single : ∀ cell number other, cell ∈ emittedCells arch lines number →
    cell ∈ emittedCells arch lines other → number = other
  /-- Every cell that is written is recorded for the line that writes it. -/
  recorded : ∀ (cell : Fin arch.memorySize) number,
    (Build.ofLines arch lines).sourceMap.line? cell = some number ↔
      cell ∈ emittedCells arch lines number
  /-- A label is the address of the first byte of its line. -/
  labels : ∀ number line label first, lines[number]? = some line → line.label = some label →
    (emittedCells arch lines number).head? = some first →
      (Build.ofLines arch lines).labels.find? label = some first

/-- No word that places the bytes of a program is read in two ways. -/
def PlacesOnce (arch : Architecture) (lines : List SourceLine) : Prop :=
  ∀ number line placement, lines[number]? = some line →
    Placement.ofStatement? line.statement = some placement →
      ¬ ReadTwoWays ((layoutBefore arch lines number).withLabel line).labels
        (Build.ofLines arch lines).labels placement.word

/-- A build without problems is made of two clean passes. -/
theorem clean_of_succeeded (succeeded : (Build.ofLines arch lines).succeeded = true) :
    (passLines (fun _ line layout => layout.treatLine line) (Layout.start arch) 0 lines).Clean ∧
      (passLines (Image.treatLine (Build.ofLines arch lines).labels) (Image.start arch) 0
        lines).Clean ∧
      (Build.ofLines arch lines).layout = layoutBefore arch lines lines.length ∧
      (Build.ofLines arch lines).image = imageBefore arch lines lines.length := by
  rw [layoutBefore, imageBefore, stateBefore_length, stateBefore_length]
  unfold Build.ofLines at succeeded ⊢
  dsimp only at succeeded ⊢
  split at succeeded
  · rename_i problem
    simp only [Build.succeeded, Bool.and_eq_true, Option.isNone_iff_eq_none,
      List.isEmpty_iff] at succeeded
    simp [succeeded] at problem
  · rename_i noProblem
    simp only [Build.succeeded, Bool.and_eq_true, Option.isNone_iff_eq_none,
      List.isEmpty_iff] at succeeded
    simp only [Bool.or_eq_true, not_or, Bool.not_eq_true, Option.isSome_eq_false_iff,
      Option.isNone_iff_eq_none, Bool.not_eq_false', List.isEmpty_iff] at noProblem
    simp only [noProblem, Option.isSome_none, List.isEmpty_nil, Bool.not_true, Bool.or_self,
      Bool.false_eq_true, if_false]
    exact ⟨⟨noProblem.2, noProblem.1⟩, ⟨succeeded.2, succeeded.1⟩, trivial, rfl⟩

/-! ## One line in both passes -/

section Lines

variable (succeeded : (Build.ofLines arch lines).succeeded = true)
include succeeded

theorem layout_step {number : Nat} {line : SourceLine} (here : lines[number]? = some line) :
    Layout.Step line (layoutBefore arch lines number) (layoutBefore arch lines (number + 1)) :=
  Layout.step_of_treatLine (treat_stateBefore (clean_of_succeeded succeeded).1 here)

theorem image_step {number : Nat} {line : SourceLine} (here : lines[number]? = some line) :
    Image.Step (Build.ofLines arch lines).labels number line (imageBefore arch lines number)
      (imageBefore arch lines (number + 1)) :=
  Image.step_of_treatLine (treat_stateBefore (clean_of_succeeded succeeded).2.1 here)

theorem labels_eq :
    (Build.ofLines arch lines).labels = (layoutBefore arch lines lines.length).labels := by
  rw [Build.labels, (clean_of_succeeded succeeded).2.2.1]

theorem wellFormed_layoutBefore {number : Nat} (inside : number ≤ lines.length) :
    (layoutBefore arch lines number).labels.WellFormed := by
  apply stateBefore_induction (motive := fun _ layout => layout.labels.WellFormed)
    (clean_of_succeeded succeeded).1 _ _ number inside
  · exact fun entry member => absurd member (by simp [Layout.start])
  · intro number line layout after _ wellFormed treated
    exact (Layout.step_of_treatLine treated).wellFormed wellFormed

/-- A label is a cell of memory. -/
theorem find?_lt_memorySize {name : String} {address : Nat}
    (found : (Build.ofLines arch lines).labels.find? name = some address) :
    address < arch.memorySize := by
  rw [labels_eq succeeded] at found
  have inMemory := stateBefore_induction
    (motive := fun _ layout => ∀ name address,
      layout.labels.find? name = some address → address < arch.memorySize)
    (clean_of_succeeded succeeded).1 (by simp [Layout.start, LabelTable.find?]) ?_
    lines.length (Nat.le_refl _)
  · exact inMemory name address found
  · intro number line layout after _ inMemory treated name address found
    have step := Layout.step_of_treatLine treated
    cases label : line.label with
    | none =>
        rw [step.labels, Layout.withLabel, label] at found
        exact inMemory name address found
    | some written =>
        rw [(step.label written label).2.2] at found
        rcases LabelTable.find?_define found with here | earlier
        · rw [here]
          exact layout.cursor.isLt
        · exact inMemory name address earlier

theorem layoutBefore_growsTo {number later : Nat} (ordered : number ≤ later)
    (inside : later ≤ lines.length) :
    (layoutBefore arch lines number).labels.GrowsTo (layoutBefore arch lines later).labels := by
  induction ordered with
  | refl => exact .refl _
  | @step middle _ induction =>
      have here : lines[middle]? = some lines[middle] := List.getElem?_eq_getElem inside
      exact (induction (by omega)).trans (layout_step succeeded here).growsTo

theorem growsTo_labels {number : Nat} (inside : number ≤ lines.length) :
    (layoutBefore arch lines number).labels.GrowsTo (Build.ofLines arch lines).labels := by
  rw [labels_eq succeeded]
  exact layoutBefore_growsTo succeeded inside (Nat.le_refl _)

/-- A line that starts at the same place twice takes the same cells and ends at the same place. -/
theorem line_agreement (once : PlacesOnce arch lines) {number : Nat} {line : SourceLine}
    (here : lines[number]? = some line)
    (sameStart :
      (layoutBefore arch lines number).cursor = (imageBefore arch lines number).cursor) :
    reservedCells arch lines number = emittedCells arch lines number ∧
      (layoutBefore arch lines (number + 1)).cursor =
        (imageBefore arch lines (number + 1)).cursor := by
  have inside : number < lines.length := (List.getElem?_eq_some_iff.mp here).1
  have first := layout_step succeeded here
  have second := image_step succeeded here
  simp only [reservedCells, emittedCells, here]
  rcases first.cursor with ⟨nothing, stays⟩ | ⟨something, effect, given, moves⟩
  · rcases second.cursor with ⟨_, staysLater⟩ | ⟨something, _⟩
    · exact ⟨by simp [lineCells, nothing], by rw [stays, staysLater, sameStart]⟩
    · simp [nothing] at something
  · rcases second.cursor with ⟨nothing, _⟩ | ⟨_, effectLater, givenLater, movesLater⟩
    · simp [something] at nothing
    · have wellFormed : (layoutBefore arch lines (number + 1)).labels.WellFormed :=
        wellFormed_layoutBefore succeeded inside
      have grows : (layoutBefore arch lines (number + 1)).labels.GrowsTo
          (Build.ofLines arch lines).labels :=
        growsTo_labels succeeded inside
      rw [first.labels] at wellFormed grows
      have same := statementEffect_sameShape wellFormed grows given givenLater
        (fun placement places => once number line placement here places)
      refine ⟨?_, ?_⟩
      · rw [lineCells_of_effect something given, lineCells_of_effect something givenLater,
          Layout.scope, sameStart]
        exact same.cells_eq _
      · rw [moves, movesLater, sameStart]
        exact same.next_eq _

/-- What both passes have in common in front of a line. -/
structure AgreementBefore (arch : Architecture) (lines : List SourceLine) (number : Nat) :
    Prop where
  cursor : (layoutBefore arch lines number).cursor = (imageBefore arch lines number).cursor
  /-- The cells that are taken so far are those that are written so far. -/
  reserved : ∀ cell, (layoutBefore arch lines number).reserved.get cell = true ↔
    ∃ earlier < number, cell ∈ emittedCells arch lines earlier
  /-- The line of a cell has not been recorded over. -/
  recorded : ∀ (cell : Fin arch.memorySize) earlier,
    (imageBefore arch lines number).sourceMap.line? cell = some earlier ↔
      earlier < number ∧ cell ∈ emittedCells arch lines earlier

theorem agreementBefore_succ (once : PlacesOnce arch lines) {number : Nat}
    (inside : number < lines.length) (agreement : AgreementBefore arch lines number) :
    AgreementBefore arch lines (number + 1) := by
  have here : lines[number]? = some lines[number] := List.getElem?_eq_getElem inside
  have first := layout_step succeeded here
  have second := image_step succeeded here
  obtain ⟨sameCells, sameEnd⟩ := line_agreement succeeded once here agreement.cursor
  have taken : lineCells ((layoutBefore arch lines number).scope lines[number]) arch
      lines[number] = emittedCells arch lines number := by
    rw [← sameCells, reservedCells, here]
  have written : lineCells ⟨.emit, (Build.ofLines arch lines).labels,
      (imageBefore arch lines number).cursor⟩ arch lines[number] =
        emittedCells arch lines number := by
    rw [emittedCells, here]
  refine ⟨sameEnd, ?_, ?_⟩
  · intro cell
    rw [first.reserved, agreement.reserved, taken]
    constructor
    · rintro (⟨earlier, before, member⟩ | member)
      · exact ⟨earlier, by omega, member⟩
      · exact ⟨number, by omega, member⟩
    · rintro ⟨earlier, before, member⟩
      rcases Nat.lt_succ_iff_lt_or_eq.mp before with strictly | rfl
      · exact .inl ⟨earlier, strictly, member⟩
      · exact .inr member
  · intro cell earlier
    rw [second.recorded, written]
    split
    · rename_i member
      constructor
      · intro same
        obtain rfl := Option.some.inj same
        exact ⟨by omega, member⟩
      · rintro ⟨before, memberEarlier⟩
        rcases Nat.lt_succ_iff_lt_or_eq.mp before with strictly | rfl
        · -- an earlier line has taken the cell, so the first pass would have failed here
          have free := first.free cell (taken ▸ member)
          have busy := (agreement.reserved cell).mpr ⟨earlier, strictly, memberEarlier⟩
          exact absurd (busy.symm.trans free) (by simp)
        · rfl
    · rename_i noMember
      rw [agreement.recorded]
      constructor
      · rintro ⟨before, member⟩
        exact ⟨by omega, member⟩
      · rintro ⟨before, member⟩
        rcases Nat.lt_succ_iff_lt_or_eq.mp before with strictly | rfl
        · exact ⟨strictly, member⟩
        · exact absurd member noMember

theorem agreementBefore (once : PlacesOnce arch lines) :
    ∀ number ≤ lines.length, AgreementBefore arch lines number := by
  intro number
  induction number with
  | zero =>
      intro _
      refine ⟨rfl, ?_, ?_⟩
      · simp [layoutBefore, Layout.start]
      · simp [imageBefore, Image.start]
  | succ number induction =>
      intro inside
      exact agreementBefore_succ succeeded once inside (induction (by omega))

/-! ## The layout of a program -/

/-- The first byte of a line is put where the line starts. -/
theorem head?_emittedCells {number : Nat} {first : Fin arch.memorySize}
    (head : (emittedCells arch lines number).head? = some first) :
    first = (imageBefore arch lines number).cursor := by
  have inside := lt_length_of_mem_emittedCells (List.mem_of_mem_head? head)
  have here : lines[number]? = some lines[number] := List.getElem?_eq_getElem inside
  rcases (image_step succeeded here).cursor with ⟨nothing, _⟩ | ⟨something, effect, given, _⟩
  · simp [emittedCells, here, lineCells, nothing] at head
  · simp only [emittedCells, here] at head
    rw [lineCells_of_effect something given] at head
    exact Effect.head?_cells head

theorem layoutAgreement_of_placesOnce (once : PlacesOnce arch lines) :
    LayoutAgreement arch lines := by
  have before := agreementBefore succeeded once
  have complete := before lines.length (Nat.le_refl _)
  obtain ⟨_, _, finalLayout, finalImage⟩ := clean_of_succeeded succeeded
  have recorded : ∀ (cell : Fin arch.memorySize) number,
      (Build.ofLines arch lines).sourceMap.line? cell = some number ↔
        cell ∈ emittedCells arch lines number := by
    intro cell number
    rw [Build.sourceMap, finalImage, complete.recorded]
    exact ⟨And.right, fun member => ⟨lt_length_of_mem_emittedCells member, member⟩⟩
  refine ⟨?_, ?_, ?_, ?_, recorded, ?_⟩
  · exact fun number inside => (before number (by omega)).cursor
  · intro number
    by_cases inside : number < lines.length
    · have here : lines[number]? = some lines[number] := List.getElem?_eq_getElem inside
      exact (line_agreement succeeded once here (before number (by omega)).cursor).1
    · have missing : lines[number]? = none := List.getElem?_eq_none (by omega)
      simp [reservedCells, emittedCells, missing]
  · intro cell
    rw [finalLayout, complete.reserved]
    constructor
    · rintro ⟨number, _, member⟩
      exact ⟨number, member⟩
    · rintro ⟨number, member⟩
      exact ⟨number, lt_length_of_mem_emittedCells member, member⟩
  · intro cell number other member memberOther
    have line := (recorded cell number).mpr member
    rw [(recorded cell other).mpr memberOther] at line
    exact (Option.some.inj line).symm
  · intro number line label first here labelled head
    have inside : number < lines.length := (List.getElem?_eq_some_iff.mp here).1
    obtain ⟨_, _, defined⟩ := (layout_step succeeded here).label label labelled
    rw [head?_emittedCells succeeded head, ← (before number (by omega)).cursor]
    have grows : (layoutBefore arch lines (number + 1)).labels.GrowsTo
        (Build.ofLines arch lines).labels :=
      growsTo_labels succeeded inside
    apply grows
    rw [defined]
    exact LabelTable.find?_define_self _ _ _

/-- A word that is read in two ways puts the cells or the end of its line elsewhere. -/
theorem placesOnce_of_layoutAgreement (agreement : LayoutAgreement arch lines) :
    PlacesOnce arch lines := by
  intro number line placement here places twice
  have inside : number < lines.length := (List.getElem?_eq_some_iff.mp here).1
  have first := layout_step succeeded here
  have sameStart := agreement.cursor number inside
  have sameCells := agreement.cells number
  -- the label that the word becomes is defined on a later line
  have later : number + 1 < lines.length := by
    by_cases last : number + 1 = lines.length
    · obtain ⟨value, address, unknown, _, found, _⟩ := twice
      rw [labels_eq succeeded, ← last, first.labels, unknown] at found
      exact absurd found (by simp)
    · omega
  have sameEnd := agreement.cursor (number + 1) later
  have something := Placement.statement_ne_empty places
  rcases first.cursor with ⟨nothing, _⟩ | ⟨_, effect, given, moves⟩
  · simp [something] at nothing
  · rcases (image_step succeeded here).cursor with ⟨nothing, _⟩ | ⟨_, other, givenOther, movesOther⟩
    · simp [something] at nothing
    · have wellFormed := wellFormed_layoutBefore succeeded (Nat.le_refl lines.length)
      rw [← labels_eq succeeded] at wellFormed
      rw [moves, movesOther, ← sameStart] at sameEnd
      simp only [reservedCells, emittedCells, here, ← sameStart] at sameCells
      rw [lineCells_of_effect something given] at sameCells
      rw [← sameStart] at givenOther
      rw [lineCells_of_effect something givenOther] at sameCells
      rcases placement_shapes_differ places wellFormed
          (fun _ _ found => find?_lt_memorySize succeeded found) given givenOther twice
          (layoutBefore arch lines number).cursor (layoutBefore arch lines number).cursor
        with ends | cells
      · exact ends sameEnd
      · exact cells sameCells

end Lines

/--
The passes over a program without problems agree on its layout exactly if no
word behind `org` or between the brackets of `dab` and `daw` is read in two
ways.
-/
theorem layoutAgreement_iff_placesOnce (arch : Architecture) (source : String)
    (succeeded : (Build.ofSource arch source).succeeded = true) :
    LayoutAgreement arch (SourceLine.ofSource source) ↔
      PlacesOnce arch (SourceLine.ofSource source) :=
  ⟨placesOnce_of_layoutAgreement succeeded, layoutAgreement_of_placesOnce succeeded⟩

/-- A program that goes on at a label defined in front of `org`. -/
theorem layoutAgreement_iff_placesOnce_backwards :
    (Build.ofSource Catalog.neander "one: db 1\norg 16\ntwo: db 2\norg one+1\ndb 3").succeeded =
        true ∧
      (LayoutAgreement Catalog.neander
          (SourceLine.ofSource "one: db 1\norg 16\ntwo: db 2\norg one+1\ndb 3") ↔
        PlacesOnce Catalog.neander
          (SourceLine.ofSource "one: db 1\norg 16\ntwo: db 2\norg one+1\ndb 3")) :=
  ⟨by decide +kernel, layoutAgreement_iff_placesOnce _ _ (by decide +kernel)⟩

/--
The word behind `org` is the number 16 while memory is reserved, and a label at
17 while bytes are emitted: the label is not where the byte of its line is.
-/
theorem not_layoutAgreement_of_hexadecimal_label :
    (Build.ofSource Catalog.neander "org h10\ndb 1\nh10: db 2").succeeded = true ∧
      (Build.ofSource Catalog.neander "org h10\ndb 1\nh10: db 2").labels.find? "h10" = some 17 ∧
      (Build.ofSource Catalog.neander "org h10\ndb 1\nh10: db 2").sourceMap.line? 18 = some 2 ∧
      ¬ LayoutAgreement Catalog.neander (SourceLine.ofSource "org h10\ndb 1\nh10: db 2") := by
  refine ⟨by decide +kernel, by decide +kernel, by decide +kernel, ?_⟩
  intro agreement
  have sameStart := agreement.cursor 1 (by decide +kernel)
  exact absurd sameStart (by decide +kernel)

end ClassroomCpu.Assembly
