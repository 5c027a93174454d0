import ClassroomCpu.Proofs.Assembly.Assembler
import ClassroomCpu.Proofs.Assembly.FaultFree
import ClassroomCpu.Proofs.Assembly.LayoutAgreement
import ClassroomCpu.Proofs.Machine.InstructionText
import ClassroomCpu.Proofs.Machine.Reset

/-!
# Builds without a past

What a build answers and what it leaves behind is told by the program alone:
neither the tables of earlier builds nor what the machine did before has an
influence.  A cell that no line emits is empty afterwards.
-/

namespace ClassroomCpu.Assembly

variable {arch : Architecture}

/-! ## Cells that no line emits -/

namespace Image

theorem memory_putFrom (image : Image arch) (line address : Nat) (bytes : List UInt8)
    {cell : Fin arch.memorySize} (apart : cell ∉ cellsFrom arch address bytes.length) :
    (image.putFrom line address bytes).memory.get cell = image.memory.get cell := by
  induction bytes generalizing image address with
  | nil => rfl
  | cons byte bytes induction =>
      simp only [List.length_cons, cellsFrom, List.mem_cons, not_or] at apart
      rw [putFrom_cons, induction _ _ apart.2]
      exact get_set_of_ne (Ne.symm apart.1)

/-- A line leaves the cells alone that it does not emit. -/
theorem memory_treatLine {labels : LabelTable} {number : Nat} {line : SourceLine}
    {image after : Image arch} (treated : treatLine labels number line image = (after, .ok ()))
    {cell : Fin arch.memorySize}
    (apart : cell ∉ lineCells ⟨.emit, labels, image.cursor⟩ arch line) :
    after.memory.get cell = image.memory.get cell := by
  unfold treatLine at treated
  split at treated
  · simp only [Prod.mk.injEq, and_true] at treated
    rw [treated]
  · rename_i something
    split at treated
    · simp only [Prod.mk.injEq, and_true] at treated
      rw [← treated]
    · rename_i bytes given
      simp only [Prod.mk.injEq, and_true] at treated
      rw [lineCells_of_effect (by simpa using something) given] at apart
      rw [← treated]
      exact memory_putFrom image number image.cursor bytes apart
    · simp at treated

end Image

theorem memory_imageBefore {lines : List SourceLine}
    (succeeded : (Build.ofLines arch lines).succeeded = true) {cell : Fin arch.memorySize}
    (apart : ∀ number, cell ∉ emittedCells arch lines number) :
    ∀ number ≤ lines.length, (imageBefore arch lines number).memory.get cell = 0 := by
  have clean := (clean_of_succeeded succeeded).2.1
  intro number
  induction number with
  | zero => exact fun _ => get_replicate 0 cell
  | succ number induction =>
      intro inside
      have here : lines[number]? = some (lines[number]) := List.getElem?_eq_getElem (by omega)
      have untouched := apart number
      rw [emittedCells, here] at untouched
      have kept := Image.memory_treatLine (treat_stateBefore clean here) untouched
      exact kept.trans (induction (by omega))

/-! ## The machine afterwards -/

namespace Assembler

section Commit

variable (assembler : Assembler arch) (machine : Machine arch)

theorem silent_written :
    ((machine.startQueue.writeImage assembler.memory).setLabels assembler.labelTexts).silent =
      { machine.silent with memory := assembler.memory, labels := assembler.labelTexts } := by
  rw [Machine.silent_setLabels, Machine.silent_writeImage]
  rfl

theorem memory_written :
    ((machine.startQueue.writeImage assembler.memory).setLabels assembler.labelTexts).memory =
      assembler.memory :=
  congrArg Machine.memory (silent_written assembler machine)

theorem labels_written :
    ((machine.startQueue.writeImage assembler.memory).setLabels assembler.labelTexts).labels =
      assembler.labelTexts :=
  congrArg Machine.labels (silent_written assembler machine)

/-- What is put into a machine leaves nothing of what the machine was. -/
theorem silent_commit (reaches : Machine.ReachesStack arch) (other : Machine arch) :
    (assembler.commit machine).silent = (assembler.commit other).silent :=
  Machine.silent_reset reaches
    ((memory_written assembler machine).trans (memory_written assembler other).symm)
    ((labels_written assembler machine).trans (labels_written assembler other).symm)

theorem memory_commit (reaches : Machine.ReachesStack arch) :
    (assembler.commit machine).memory = assembler.memory :=
  (Machine.memory_reset reaches _).trans (memory_written assembler machine)

theorem labels_commit (reaches : Machine.ReachesStack arch) :
    (assembler.commit machine).labels = assembler.labelTexts :=
  (Machine.labels_reset reaches _).trans (labels_written assembler machine)

end Commit

/-! ## Two builds of one program -/

section Builds

variable {before before' : Architecture} (assembler : Assembler before)
  (assembler' : Assembler before') (machine machine' : Machine arch) (source : String)

/-- What is answered and what the tables hold depends on the program alone. -/
theorem tables_assemble :
    let one := assembler.assemble machine source
    let other := assembler'.assemble machine' source
    one.errors = other.errors ∧ one.fault = other.fault ∧ one.assembler = other.assembler := by
  have cleared : assembler.clear arch = assembler'.clear arch := rfl
  dsimp only
  unfold assemble
  rw [cleared]
  dsimp only
  split
  · exact ⟨rfl, rfl, rfl⟩
  · split <;> exact ⟨rfl, rfl, rfl⟩

theorem machine_assemble (noErrors : (assembler.assemble machine source).errors = [])
    (noFault : (assembler.assemble machine source).fault = none) :
    (assembler.assemble machine source).machine =
      (assembler.assemble machine source).assembler.commit machine := by
  rcases assemble_cases assembler machine source with
    ⟨failed, stopped⟩ | ⟨_, failed, stopped⟩ | ⟨_, _, ended⟩
  · rw [stopped] at noErrors noFault
    rw [PassResult.failed_eq_false_iff.mpr ⟨noFault, noErrors⟩] at failed
    contradiction
  · rw [stopped] at noErrors noFault
    rw [PassResult.failed_eq_false_iff.mpr ⟨noFault, noErrors⟩] at failed
    contradiction
  · rw [ended]

theorem fault_assemble (known : arch ∈ Catalog.machines) :
    (assembler.assemble machine source).fault = none := by
  rw [(assemble_eq_build assembler machine source).2.1]
  exact fault_ofSource (Catalog.legible arch known).modes.compiled source

theorem succeeded_assemble (known : arch ∈ Catalog.machines)
    (noErrors : (assembler.assemble machine source).errors = []) :
    (Build.ofSource arch source).succeeded = true := by
  obtain ⟨errors, fault, _, _⟩ := assemble_eq_build assembler machine source
  rw [noErrors] at errors
  rw [fault_assemble assembler machine source known] at fault
  simp [Build.succeeded, ← errors, ← fault]

/-- The machine has the labels that the assembler knows. -/
theorem labels_assemble (known : arch ∈ Catalog.machines)
    (noErrors : (assembler.assemble machine source).errors = []) :
    (assembler.assemble machine source).machine.labels =
      (assembler.assemble machine source).assembler.labelTexts := by
  rw [machine_assemble assembler machine source noErrors
      (fault_assemble assembler machine source known),
    labels_commit _ _ (Machine.reachesStack arch known)]

/-- A cell that no line emits is empty after a build. -/
theorem memory_assemble (known : arch ∈ Catalog.machines)
    (noErrors : (assembler.assemble machine source).errors = []) {cell : Fin arch.memorySize}
    (apart : ∀ number, cell ∉ emittedCells arch (SourceLine.ofSource source) number) :
    (assembler.assemble machine source).machine.memory.get cell = 0 := by
  have noFault := fault_assemble assembler machine source known
  have succeeded := succeeded_assemble assembler machine source known noErrors
  obtain ⟨_, _, holds, _⟩ := assemble_eq_build assembler machine source
  rw [machine_assemble assembler machine source noErrors noFault,
    memory_commit _ _ (Machine.reachesStack arch known), holds.memory]
  change (Build.ofLines arch (SourceLine.ofSource source)).image.memory.get cell = 0
  rw [(clean_of_succeeded succeeded).2.2.2]
  exact memory_imageBefore succeeded apart _ le_rfl

/--
Two builds of one program give the same answer and the same tables, whatever the
assemblers built and the machines did before.  Without problems they leave the
same machine, which is the one that a first build on a new machine leaves, and
every cell that no line emits is empty.
-/
theorem assemble_forgets (known : arch ∈ Catalog.machines) :
    let one := assembler.assemble machine source
    let other := assembler'.assemble machine' source
    let first := (new arch).assemble (Machine.new arch) source
    one.fault = none ∧ one.errors = other.errors ∧ one.assembler = other.assembler ∧
      (one.errors = [] →
        one.machine.silent = other.machine.silent ∧
          one.machine.silent = first.machine.silent ∧
          ∀ cell, (∀ number, cell ∉ emittedCells arch (SourceLine.ofSource source) number) →
            one.machine.memory.get cell = 0) := by
  intro one other first
  have noFault : ∀ {before : Architecture} (assembler : Assembler before) (machine : Machine arch),
      (assembler.assemble machine source).fault = none :=
    fun assembler machine => fault_assemble assembler machine source known
  have same : ∀ {before : Architecture} (assembler' : Assembler before) (machine' : Machine arch),
      one.errors = [] →
        one.machine.silent = (assembler'.assemble machine' source).machine.silent := by
    intro before assembler' machine' noErrors
    obtain ⟨errors, _, tables⟩ := tables_assemble assembler assembler' machine machine' source
    rw [noErrors] at errors
    calc
      one.machine.silent = (one.assembler.commit machine).silent := by
        rw [machine_assemble assembler machine source noErrors (noFault _ _)]
      _ = (one.assembler.commit machine').silent :=
        silent_commit one.assembler machine (Machine.reachesStack arch known) machine'
      _ = (assembler'.assemble machine' source).machine.silent := by
        rw [machine_assemble assembler' machine' source errors.symm (noFault _ _), ← tables]
  obtain ⟨errors, _, tables⟩ := tables_assemble assembler assembler' machine machine' source
  refine ⟨noFault _ _, errors, tables, ?_⟩
  intro noErrors
  refine ⟨same _ _ noErrors, same _ _ noErrors, ?_⟩
  exact fun cell apart => memory_assemble assembler machine source known noErrors apart

end Builds

theorem assemble_forgets_running_machine :
    let machine := ((Machine.new Catalog.neander).poke 9 7).setRunning true
    let one := (new Catalog.ramses).assemble machine "a: db 5"
    let first := (new Catalog.neander).assemble (Machine.new Catalog.neander) "a: db 5"
    Catalog.neander ∈ Catalog.machines ∧ one.errors = [] ∧
      one.machine.silent = first.machine.silent := by
  intro machine one first
  have known : Catalog.neander ∈ Catalog.machines := by simp [Catalog.machines]
  have noErrors : one.errors = [] := by decide +kernel
  exact ⟨known, noErrors, ((assemble_forgets (new Catalog.ramses) (new Catalog.neander) machine
    (Machine.new Catalog.neander) "a: db 5" known).2.2.2 noErrors).1⟩

end Assembler

end ClassroomCpu.Assembly
