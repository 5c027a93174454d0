import ClassroomCpu.Proofs.Assembly.LayoutAgreement

/-!
# What a build knows of addresses

A build that succeeds knows the first cell of every line that emits bytes, and
keeps its labels twice: by their names, and by their cells.  A label is at the
cell where its line starts, and a cell has the text of the first label there; so
the two tables agree on which cells have a label.
-/

namespace ClassroomCpu.Assembly

variable {arch : Architecture}

/-! ## The first cell of a line -/

namespace Image

theorem address?_putFrom (image : Image arch) (line address : Nat) (bytes : List UInt8)
    (other : Nat) :
    (image.putFrom line address bytes).sourceMap.address? other =
      if line = other then
        (image.sourceMap.address? other).or
          ((cellsFrom arch address bytes.length).head?.map Fin.val)
      else image.sourceMap.address? other := by
  induction bytes generalizing image address with
  | nil => simp [cellsFrom]
  | cons byte bytes induction =>
      rw [putFrom_cons, induction]
      simp only [SourceMap.address?_insert, List.length_cons, cellsFrom, List.head?_cons,
        Option.map_some]
      split
      · cases image.sourceMap.address? other <;> rfl
      · rfl

/-- A line adds its own first cell, if it emits any. -/
theorem address?_treatLine {labels : LabelTable} {number : Nat} {line : SourceLine}
    {image after : Image arch} (treated : treatLine labels number line image = (after, .ok ()))
    (other : Nat) :
    after.sourceMap.address? other =
      if number = other then
        (image.sourceMap.address? other).or
          ((lineCells ⟨.emit, labels, image.cursor⟩ arch line).head?.map Fin.val)
      else image.sourceMap.address? other := by
  unfold treatLine at treated
  split at treated
  · rename_i nothing
    simp only [Prod.mk.injEq, and_true] at treated
    simp [← treated, lineCells, nothing]
  · rename_i something
    split at treated
    · rename_i address given
      simp only [Prod.mk.injEq, and_true] at treated
      simp [← treated, lineCells, something, given, Effect.cells]
    · rename_i bytes given
      simp only [Prod.mk.injEq, and_true] at treated
      rw [← treated, lineCells_of_effect (by simpa using something) given]
      exact address?_putFrom image number image.cursor bytes other
    · simp at treated

end Image

section Lines

variable {lines : List SourceLine} (succeeded : (Build.ofLines arch lines).succeeded = true)
include succeeded

theorem address?_imageBefore (other : Nat) :
    ∀ number ≤ lines.length, (imageBefore arch lines number).sourceMap.address? other =
      if other < number then (emittedCells arch lines other).head?.map Fin.val else none := by
  have clean := (clean_of_succeeded succeeded).2.1
  intro number
  induction number with
  | zero => simp [imageBefore, Image.start]
  | succ number induction =>
      intro inside
      have here : lines[number]? = some lines[number] := List.getElem?_eq_getElem (by omega)
      have added := Image.address?_treatLine (treat_stateBefore clean here) other
      change (imageBefore arch lines (number + 1)).sourceMap.address? other = _ at added
      rw [added]
      change (if number = other then
        ((imageBefore arch lines number).sourceMap.address? other).or _
        else (imageBefore arch lines number).sourceMap.address? other) = _
      rw [induction (by omega)]
      by_cases same : number = other
      · subst same
        simp [emittedCells, here]
        rfl
      · have order : other < number + 1 ↔ other < number := by omega
        simp [same, order]

/-- The address of a line is that of its first byte. -/
theorem address?_ofLines (number : Nat) :
    (Build.ofLines arch lines).sourceMap.address? number =
      (emittedCells arch lines number).head?.map Fin.val := by
  rw [Build.sourceMap, (clean_of_succeeded succeeded).2.2.2,
    address?_imageBefore succeeded number _ le_rfl]
  split
  · rfl
  · rename_i outside
    have missing : lines[number]? = none := List.getElem?_eq_none (by omega)
    simp [emittedCells, missing]

end Lines

/-! ## The texts of labels -/

namespace Layout

/-- A statement that succeeds leaves the texts of labels alone. -/
theorem labelTexts_treatStatement {layout after : Layout arch} {statement : String}
    (treated : layout.treatStatement statement = (after, .ok ())) :
    after.labelTexts = layout.labelTexts := by
  unfold Layout.treatStatement reserve at treated
  split at treated
  · simp only [Prod.mk.injEq, and_true] at treated
    rw [treated]
  · split at treated
    · simp only [Prod.mk.injEq, and_true] at treated
      rw [← treated]
    · split at treated
      · rename_i taken reserved
        have same := (reserveFrom_ok reserved).1
        simp only [Prod.mk.injEq, and_true] at treated
        rw [← treated, same]
      · rename_i failed
        exact absurd treated (failed after)
    · simp at treated

theorem labelTexts_treatLine {layout after : Layout arch} {line : SourceLine}
    (treated : layout.treatLine line = (after, .ok ())) :
    after.labelTexts = (layout.withLabel line).labelTexts := by
  unfold Layout.treatLine at treated
  split at treated
  · rename_i noLabel
    rw [labelTexts_treatStatement treated, withLabel, noLabel]
  · rename_i label hasLabel
    split at treated
    · rename_i middle defined
      rw [labelTexts_treatStatement treated]
      simp only [withLabel, hasLabel, defined]
    · rename_i failed
      exact absurd treated (failed after)

/-- A label is the text of its cell if the cell has had none. -/
theorem get_labelTexts_treatLine {layout after : Layout arch} {line : SourceLine} {name : String}
    (hasLabel : line.label = some name) (treated : layout.treatLine line = (after, .ok ()))
    (cell : Fin arch.memorySize) :
    after.labelTexts.get cell =
      if layout.cursor = cell ∧ layout.labelTexts.get cell = "" then name
      else layout.labelTexts.get cell := by
  obtain ⟨legal, isNew, _⟩ := (step_of_treatLine treated).label name hasLabel
  have defined : (layout.withLabel line).labelTexts =
      if (layout.labelTexts.get layout.cursor).isEmpty then
        layout.labelTexts.set layout.cursor name layout.cursor.isLt
      else layout.labelTexts := by
    simp [withLabel, hasLabel, defineLabel, legal, isNew]
  rw [labelTexts_treatLine treated, defined]
  by_cases here : layout.cursor = cell
  · subst here
    by_cases empty : layout.labelTexts.get layout.cursor = ""
    · simp [empty]
    · simp [empty]
  · split
    · rw [get_set_of_ne here, if_neg fun both => here both.1]
    · rw [if_neg fun both => here both.1]

end Layout

/-! ## Labels of lines -/

variable {lines : List SourceLine}

/-- The name in front of the colon of the line with a number. -/
def labelOf? (lines : List SourceLine) (number : Nat) : Option String :=
  lines[number]?.bind SourceLine.label

/-- The line with a number defines a label at an address. -/
structure LabelAt (arch : Architecture) (lines : List SourceLine) (number : Nat) (name : String)
    (address : Nat) : Prop where
  written : labelOf? lines number = some name
  /-- A line starts where the lines in front leave the cursor. -/
  place : ((layoutBefore arch lines number).cursor : Nat) = address

/-- The line with a number is the first one that defines a label at an address. -/
structure FirstLabelAt (arch : Architecture) (lines : List SourceLine) (number : Nat)
    (name : String) (address : Nat) : Prop extends LabelAt arch lines number name address where
  first : ∀ earlier < number, ∀ other, ¬ LabelAt arch lines earlier other address

theorem exists_line_of_labelOf? {number : Nat} {name : String}
    (labelled : labelOf? lines number = some name) :
    ∃ line, lines[number]? = some line ∧ line.label = some name :=
  Option.bind_eq_some_iff.mp labelled

/-- What the first pass knows of labels in front of a line. -/
structure LabelsBefore (arch : Architecture) (lines : List SourceLine) (number : Nat) : Prop where
  /-- Every entry comes from a line in front. -/
  entries : ∀ key address, (key, address) ∈ (layoutBefore arch lines number).labels →
    ∃ earlier < number, ∃ name, LabelAt arch lines earlier name address ∧
      Text.uppercase name = key
  distinct : ((layoutBefore arch lines number).labels.map Prod.fst).Nodup
  /-- A cell without a text has no label from a line in front. -/
  unnamed : ∀ cell, (layoutBefore arch lines number).labelTexts.get cell = "" →
    ∀ earlier < number, ∀ name, ¬ LabelAt arch lines earlier name cell
  /-- A cell with a text has it from the first line with a label there. -/
  named : ∀ cell, (layoutBefore arch lines number).labelTexts.get cell ≠ "" →
    ∃ earlier < number, FirstLabelAt arch lines earlier
      ((layoutBefore arch lines number).labelTexts.get cell) cell

theorem labelsBefore_zero : LabelsBefore arch lines 0 where
  entries _ _ member := absurd member List.not_mem_nil
  distinct := .nil
  unnamed _ _ earlier before := absurd before (Nat.not_lt_zero earlier)
  named cell labelled := absurd (get_replicate "" cell) labelled

/-- A line without a label leaves the labels as they are. -/
theorem LabelsBefore.unlabelled {number : Nat} (known : LabelsBefore arch lines number)
    (noLabel : labelOf? lines number = none)
    (labels : (layoutBefore arch lines (number + 1)).labels =
      (layoutBefore arch lines number).labels)
    (texts : (layoutBefore arch lines (number + 1)).labelTexts =
      (layoutBefore arch lines number).labelTexts) :
    LabelsBefore arch lines (number + 1) := by
  constructor
  · intro key address member
    rw [labels] at member
    obtain ⟨earlier, before, entry⟩ := known.entries key address member
    exact ⟨earlier, by omega, entry⟩
  · rw [labels]
    exact known.distinct
  · intro cell empty earlier before name labelled
    rw [texts] at empty
    rcases Nat.lt_succ_iff_lt_or_eq.mp before with strictly | rfl
    · exact known.unnamed cell empty earlier strictly name labelled
    · rw [labelled.written] at noLabel
      contradiction
  · intro cell something
    rw [texts] at something ⊢
    obtain ⟨earlier, before, first⟩ := known.named cell something
    exact ⟨earlier, by omega, first⟩

/-- A new label is in the table, and is shown by its cell if the cell has had none. -/
theorem LabelsBefore.labelled {number : Nat} {name : String}
    (known : LabelsBefore arch lines number) (written : labelOf? lines number = some name)
    (something : name ≠ "") (isNew : (layoutBefore arch lines number).labels.find? name = none)
    (labels : (layoutBefore arch lines (number + 1)).labels =
      (layoutBefore arch lines number).labels.define name (layoutBefore arch lines number).cursor)
    (texts : ∀ cell, (layoutBefore arch lines (number + 1)).labelTexts.get cell =
      if (layoutBefore arch lines number).cursor = cell ∧
          (layoutBefore arch lines number).labelTexts.get cell = "" then name
      else (layoutBefore arch lines number).labelTexts.get cell) :
    LabelsBefore arch lines (number + 1) := by
  constructor
  · intro key address member
    rw [labels] at member
    rcases List.mem_cons.mp member with new | old
    · obtain ⟨rfl, rfl⟩ := Prod.mk.inj new
      exact ⟨number, by omega, name, ⟨written, rfl⟩, rfl⟩
    · obtain ⟨earlier, before, entry⟩ := known.entries key address old
      exact ⟨earlier, by omega, entry⟩
  · rw [labels, LabelTable.define, List.map_cons]
    exact List.nodup_cons.mpr ⟨LabelTable.notMem_keys_of_find? isNew, known.distinct⟩
  · intro cell empty earlier before other labelled
    rw [texts] at empty
    split at empty
    · exact something empty
    · rename_i elsewhere
      rcases Nat.lt_succ_iff_lt_or_eq.mp before with strictly | rfl
      · exact known.unnamed cell empty earlier strictly other labelled
      · exact elsewhere ⟨Fin.ext labelled.place, empty⟩
  · intro cell shown
    rw [texts] at shown ⊢
    split
    · rename_i free
      obtain ⟨here, empty⟩ := free
      exact ⟨number, by omega, ⟨written, congrArg Fin.val here⟩, known.unnamed cell empty⟩
    · rename_i elsewhere
      rw [if_neg elsewhere] at shown
      obtain ⟨earlier, before, first⟩ := known.named cell shown
      exact ⟨earlier, by omega, first⟩

section Lines

variable (succeeded : (Build.ofLines arch lines).succeeded = true)
include succeeded

theorem labelsBefore {number : Nat} (inside : number ≤ lines.length) :
    LabelsBefore arch lines number := by
  induction number with
  | zero => exact labelsBefore_zero
  | succ number induction =>
      have known := induction (by omega)
      have here : lines[number]? = some lines[number] := List.getElem?_eq_getElem (by omega)
      have treated := treat_stateBefore (clean_of_succeeded succeeded).1 here
      have step := layout_step succeeded here
      cases hasLabel : lines[number].label with
      | none =>
          have unlabelled : (layoutBefore arch lines number).withLabel lines[number] =
              layoutBefore arch lines number := by simp only [Layout.withLabel, hasLabel]
          apply known.unlabelled
          · simp [labelOf?, here, hasLabel]
          · rw [step.labels, unlabelled]
          · exact (Layout.labelTexts_treatLine treated).trans
              (congrArg Layout.labelTexts unlabelled)
      | some name =>
          obtain ⟨legal, isNew, labels⟩ := step.label name hasLabel
          refine known.labelled ?_ ?_ isNew labels
            (Layout.get_labelTexts_treatLine hasLabel treated)
          · simp [labelOf?, here, hasLabel]
          · rintro rfl
            exact absurd legal (by simp [isLabel])

/-- A label is found from the next line on. -/
theorem LabelAt.find?_layoutBefore {number later address : Nat} {name : String}
    (labelled : LabelAt arch lines number name address) (behind : number < later)
    (inside : later ≤ lines.length) :
    (layoutBefore arch lines later).labels.find? name = some address := by
  obtain ⟨line, here, hasLabel⟩ := exists_line_of_labelOf? labelled.written
  obtain ⟨_, _, labels⟩ := (layout_step succeeded here).label name hasLabel
  apply layoutBefore_growsTo succeeded behind inside
  rw [labels, labelled.place]
  exact LabelTable.find?_define_self _ _ _

theorem LabelAt.find? {number address : Nat} {name : String}
    (labelled : LabelAt arch lines number name address) :
    (Build.ofLines arch lines).labels.find? name = some address := by
  obtain ⟨line, here, _⟩ := exists_line_of_labelOf? labelled.written
  rw [labels_eq succeeded]
  exact labelled.find?_layoutBefore succeeded (List.getElem?_eq_some_iff.mp here).1 le_rfl

/-- Names of different lines differ, even without regard to the case of letters. -/
theorem not_lt_of_labelOf? {number other : Nat} {name same : String}
    (written : labelOf? lines number = some name) (writtenToo : labelOf? lines other = some same)
    (upper : Text.uppercase name = Text.uppercase same) : ¬ number < other := by
  intro before
  obtain ⟨line, here, hasLabel⟩ := exists_line_of_labelOf? writtenToo
  have found := LabelAt.find?_layoutBefore succeeded ⟨written, rfl⟩ before
    (List.getElem?_eq_some_iff.mp here).1.le
  obtain ⟨_, isNew, _⟩ := (layout_step succeeded here).label same hasLabel
  rw [LabelTable.find?, upper, ← LabelTable.find?, isNew] at found
  contradiction

end Lines

/-! ## The cells with a label -/

/-- The address is that of a cell with a text. -/
def Labelled (texts : Vector String arch.memorySize) (address : Nat) : Prop :=
  ∃ cell : Fin arch.memorySize, (cell : Nat) = address ∧ texts.get cell ≠ ""

theorem not_labelled_replicate (address : Nat) :
    ¬ Labelled (Vector.replicate arch.memorySize "") address := by
  rintro ⟨cell, _, labelled⟩
  exact labelled (get_replicate "" cell)

namespace Layout

/-- The labels are at the cells with a text. -/
def Named (layout : Layout arch) : Prop :=
  ∀ address, (∃ name, (name, address) ∈ layout.labels) ↔ Labelled layout.labelTexts address

theorem named_start : (start arch).Named :=
  fun address => iff_of_false (by simp [start]) (not_labelled_replicate address)

/-- The labels of a program that can be built are at the cells that are given a label. -/
theorem named_ofLines {lines : List SourceLine}
    (succeeded : (Build.ofLines arch lines).succeeded = true) :
    (Build.ofLines arch lines).layout.Named := by
  obtain ⟨entries, _, unnamed, named⟩ := labelsBefore succeeded le_rfl
  rw [(clean_of_succeeded succeeded).2.2.1]
  intro address
  constructor
  · rintro ⟨key, entry⟩
    obtain ⟨number, inside, name, labelled, _⟩ := entries key address entry
    refine ⟨_, labelled.place, fun empty => ?_⟩
    exact unnamed _ empty number inside name ⟨labelled.written, rfl⟩
  · rintro ⟨cell, rfl, something⟩
    obtain ⟨_, _, first⟩ := named cell something
    have found := first.toLabelAt.find? succeeded
    rw [labels_eq succeeded] at found
    exact ⟨_, LabelTable.mem_of_find? found⟩

end Layout

end ClassroomCpu.Assembly
