import ClassroomCpu.Proofs.Assembly.History
import ClassroomCpu.Proofs.Assembly.SymbolTable

/-!
# Where labels are

A build keeps its labels under their names in upper case, and one label for each
cell as it was written.  Every name in front of a colon is in the first table,
at the place where its line starts; a cell with several labels shows the one
whose line comes first.  The machine has the labels of the cells, and no others.
-/

namespace ClassroomCpu.Assembly

variable {arch : Architecture}

namespace Assembler

/-- The tables of labels of a build agree with the program, with each other and with the machine. -/
structure LabelsAgree (lines : List SourceLine) (built : Assembled arch) : Prop where
  /-- The keys are the names in front of colons in upper case. -/
  keys : ∀ key, (∃ address, (key, address) ∈ built.assembler.labels) ↔
    ∃ number name, labelOf? lines number = some name ∧ Text.uppercase name = key
  /-- Each is defined by one line. -/
  once : ∀ number other name same, labelOf? lines number = some name →
    labelOf? lines other = some same → Text.uppercase name = Text.uppercase same → number = other
  distinct : (built.assembler.labels.map Prod.fst).Nodup
  /-- Its address is where this line starts. -/
  addresses : ∀ number name address, LabelAt arch lines number name address →
    (Text.uppercase name, address) ∈ built.assembler.labels
  /-- The cell of a label shows the label of the first line with one there. -/
  first : ∀ key address, (key, address) ∈ built.assembler.labels →
    address < arch.memorySize ∧ ∃ number name, FirstLabelAt arch lines number name address ∧
      built.assembler.label? address = some name
  /-- A label that is shown is in the table. -/
  shown : ∀ address name, built.assembler.label? address = some name →
    built.assembler.labels.find? name = some address
  /-- The machine shows the label of the cell that an address means. -/
  machine : ∀ address, built.machine.label address =
    (built.assembler.label? (arch.cell address)).getD ""

theorem label?_cell (assembler : Assembler arch) (cell : Fin arch.memorySize) :
    assembler.label? cell =
      if assembler.labelTexts.get cell = "" then none
      else some (assembler.labelTexts.get cell) := by
  have element : assembler.labelTexts[(cell : Nat)]? = some (assembler.labelTexts.get cell) :=
    Vector.getElem?_eq_getElem cell.isLt
  rw [label?, element, Option.filter_some]
  simp

theorem exists_cell_of_label? {assembler : Assembler arch} {address : Nat} {name : String}
    (shown : assembler.label? address = some name) :
    ∃ cell : Fin arch.memorySize, (cell : Nat) = address := by
  obtain ⟨found, _⟩ := Option.filter_eq_some_iff.mp shown
  exact ⟨⟨address, (Vector.getElem?_eq_some_iff.mp found).1⟩, rfl⟩

/--
After a build without problems the labels are those in front of colons, each at the place of its
line; the cell of a label shows the first one there as it was written, and what is shown is in the
table.  The machine shows the same labels, whatever it showed before.
-/
theorem assemble_labelsAgree {before : Architecture} (assembler : Assembler before)
    (machine : Machine arch) (source : String) (known : arch ∈ Catalog.machines)
    (noErrors : (assembler.assemble machine source).errors = []) :
    LabelsAgree (SourceLine.ofSource source) (assembler.assemble machine source) := by
  let lines := SourceLine.ofSource source
  let built := assembler.assemble machine source
  have succeeded : (Build.ofLines arch lines).succeeded = true :=
    succeeded_assemble assembler machine source known noErrors
  have holds := (assemble_eq_build assembler machine source).2.2.1
  have labels : built.assembler.labels = (Build.ofLines arch lines).labels := holds.labels
  obtain ⟨entries, distinct, unnamed, named⟩ := labelsBefore succeeded le_rfl
  rw [← labels_eq succeeded, ← labels] at entries distinct
  have texts : built.assembler.labelTexts = (layoutBefore arch lines lines.length).labelTexts := by
    rw [← (clean_of_succeeded succeeded).2.2.1]
    exact holds.labelTexts
  rw [← texts] at unnamed named
  have addresses : ∀ number name address, LabelAt arch lines number name address →
      (Text.uppercase name, address) ∈ built.assembler.labels := by
    intro number name address labelled
    rw [labels]
    exact LabelTable.mem_of_find? (labelled.find? succeeded)
  constructor
  case keys =>
    intro key
    constructor
    · rintro ⟨address, entry⟩
      obtain ⟨number, _, name, labelled, upper⟩ := entries key address entry
      exact ⟨number, name, labelled.written, upper⟩
    · rintro ⟨number, name, written, rfl⟩
      exact ⟨_, addresses number name _ ⟨written, rfl⟩⟩
  case once =>
    intro number other name same written writtenToo upper
    have notBefore := not_lt_of_labelOf? succeeded written writtenToo upper
    have notBehind := not_lt_of_labelOf? succeeded writtenToo written upper.symm
    omega
  case distinct => exact distinct
  case addresses => exact addresses
  case first =>
    intro key address entry
    obtain ⟨number, inside, name, labelled, _⟩ := entries key address entry
    let cell := (layoutBefore arch lines number).cursor
    have place : (cell : Nat) = address := labelled.place
    have something : built.assembler.labelTexts.get cell ≠ "" :=
      fun empty => unnamed cell empty number inside name ⟨labelled.written, rfl⟩
    obtain ⟨_, _, first⟩ := named cell something
    rw [← place]
    exact ⟨cell.isLt, _, _, first, by rw [label?_cell, if_neg something]⟩
  case shown =>
    intro address name shown
    obtain ⟨cell, rfl⟩ := exists_cell_of_label? shown
    rw [label?_cell] at shown
    split at shown
    · contradiction
    · rename_i something
      obtain ⟨_, _, first⟩ := named cell something
      rw [labels, ← Option.some.inj shown]
      exact first.toLabelAt.find? succeeded
  case machine =>
    intro address
    have same : built.machine.labels = built.assembler.labelTexts :=
      labels_assemble assembler machine source known noErrors
    change built.machine.labels.get _ = _
    rw [same, label?_cell]
    split
    · rename_i empty
      exact empty
    · rfl

/-- Two labels of one cell, on a machine with a label that is gone afterwards. -/
theorem assemble_labelsAgree_shared_cell :
    let machine := (Machine.new Catalog.neander).setLabel (Catalog.neander.cell 9) "old"
    let built := (new Catalog.ramses).assemble machine "a:\nB: lda c\nhlt\nc: db 5"
    Catalog.neander ∈ Catalog.machines ∧ built.errors = [] ∧
      LabelsAgree (SourceLine.ofSource "a:\nB: lda c\nhlt\nc: db 5") built := by
  intro machine built
  have known : Catalog.neander ∈ Catalog.machines := by simp [Catalog.machines]
  have noErrors : built.errors = [] := by decide +kernel
  exact ⟨known, noErrors, assemble_labelsAgree (new Catalog.ramses) machine _ known noErrors⟩

/-- Behind the end of memory the machine goes on with its first cell, and the assembler does not. -/
theorem not_label_eq_label?_behind_memory :
    let built := (new Catalog.neander).assemble (Machine.new Catalog.neander) "a: nop"
    built.errors = [] ∧
      ¬ ∀ address, built.machine.label address = (built.assembler.label? address).getD "" := by
  intro built
  have known : Catalog.neander ∈ Catalog.machines := by simp [Catalog.machines]
  have noErrors : built.errors = [] := by decide +kernel
  refine ⟨noErrors, fun same => ?_⟩
  have machine : built.machine.label 256 = "a" := by
    change built.machine.labels.get _ = _
    rw [labels_assemble (new Catalog.neander) _ _ known noErrors]
    decide +kernel
  have assembler : built.assembler.label? 256 = none := by decide +kernel
  have behind := same 256
  rw [machine, assembler] at behind
  exact absurd behind (by decide)

end Assembler

end ClassroomCpu.Assembly
