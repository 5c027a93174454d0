import ClassroomCpu.Proofs.Assembly.History
import ClassroomCpu.Proofs.Catalog.Registers
import ClassroomCpu.Proofs.Execution.Lockstep
import ClassroomCpu.Proofs.Execution.Write

/-!
# Ahmes as the successor of Neander

Ahmes splits the opcodes of Neander's conditional jumps and gives a meaning to
opcodes that Neander leaves open, but the opcodes that an assembler puts out for
Neander mean the same on Ahmes.  Programs for Neander are built alike and run
alike there.
-/

namespace ClassroomCpu

open Assembly

/-! ## Checks -/

section Checks

variable {arch other : Architecture}

/-- Whether each instruction of one datasheet has its counterpart in another one. -/
def Datasheet.knowsInstructionsOf (other arch : Datasheet) : Bool :=
  arch.instructions.all fun instruction =>
    (other.instructionNamed? instruction.mnemonic).any fun counterpart =>
      counterpart.opcode == instruction.opcode && counterpart.size == instruction.size
        && counterpart.format == instruction.format

/-- Names that differ in the case of letters at most lead to the same instruction. -/
theorem Datasheet.instructionNamed?_congr (sheet : Datasheet) {left right : String}
    (same : Text.sameLetters left right = true) :
    sheet.instructionNamed? left = sheet.instructionNamed? right := by
  have letters : left.toList.map Char.toLower = right.toList.map Char.toLower := by
    simpa [Text.sameLetters] using same
  simp only [instructionNamed?, Text.sameLetters, letters]

theorem counterpart_of_check (check : other.knowsInstructionsOf arch.toDatasheet = true)
    (mnemonic : String) (instruction : Instruction)
    (named : arch.instructionNamed? mnemonic = some instruction) :
    ∃ counterpart, other.instructionNamed? mnemonic = some counterpart ∧
      counterpart.opcode = instruction.opcode ∧ counterpart.size = instruction.size ∧
        counterpart.format = instruction.format := by
  have known := List.mem_of_find?_eq_some named
  have letters := List.find?_some named
  have found := List.all_eq_true.mp check instruction known
  simp only [Option.any_eq_true, Bool.and_eq_true, beq_iff_eq] at found
  obtain ⟨counterpart, there, ⟨opcode, size⟩, form⟩ := found
  rw [other.instructionNamed?_congr letters] at there
  exact ⟨counterpart, there, opcode, size, form⟩

/-- Whether an opcode means the same plain instruction to two architectures, if the first knows it. -/
def Architecture.sharesOpcode (other arch : Architecture) (opcode : UInt8) : Bool :=
  (arch.instruction? opcode).all fun instruction =>
    (other.instruction? opcode).any fun counterpart =>
      counterpart.operation == instruction.operation && counterpart.size == instruction.size
        && counterpart.format == instruction.format && instruction.operation.isPlain

theorem shares_of_check {opcode : UInt8} (check : other.sharesOpcode arch opcode = true)
    {instruction : Instruction} (known : arch.instruction? opcode = some instruction) :
    ∃ counterpart, other.Shares arch opcode instruction counterpart := by
  simp only [Architecture.sharesOpcode, known, Option.all_some, Option.any_eq_true,
    Bool.and_eq_true, beq_iff_eq] at check
  obtain ⟨counterpart, knownOther, ⟨⟨operation, size⟩, form⟩, plain⟩ := check
  exact ⟨counterpart, known, knownOther, operation, size, form, plain⟩

end Checks

namespace Catalog

theorem emulates_ahmes : ahmes.Emulates neander where
  byteMachine := by decide
  model := rfl
  memorySize := rfl
  byteOrder := rfl
  immediateBytes := rfl
  registers := rfl
  addressingModes := rfl
  instruction := counterpart_of_check (by decide +kernel)
  standard := rfl
  counter := rfl
  accumulatorName := rfl
  direct := by decide
  negative := by decide
  zero := by decide

theorem sharesOpcode_ahmes :
    ∀ opcode : UInt8, opcode &&& 0x0f = 0 → ahmes.sharesOpcode neander opcode = true :=
  forall_byte (by decide +kernel)

end Catalog

/-! ## Builds -/

namespace Assembly

variable {arch other : Architecture}

/-- What has been built is the same, on memories of one size. -/
structure Assembled.Same (built : Assembled arch) (rebuilt : Assembled other) : Prop where
  labels : rebuilt.assembler.labels = built.assembler.labels
  labelTexts : rebuilt.assembler.labelTexts.toList = built.assembler.labelTexts.toList
  sourceMap : rebuilt.assembler.sourceMap = built.assembler.sourceMap
  memory : rebuilt.machine.memory.toList = built.machine.memory.toList
  machineLabels : rebuilt.machine.labels.toList = built.machine.labels.toList

theorem Assembler.same_assemble (understands : other.Understands arch)
    (known : arch ∈ Catalog.machines) (knownOther : other ∈ Catalog.machines)
    {before before' : Architecture} (assembler : Assembler before)
    (assembler' : Assembler before') (machine : Machine arch) (machine' : Machine other)
    (source : String) (noErrors : (assembler.assemble machine source).errors = []) :
    (assembler'.assemble machine' source).errors = [] ∧
      (assembler'.assemble machine' source).fault = none ∧
      (assembler.assemble machine source).Same (assembler'.assemble machine' source) := by
  have noFault := fault_assemble assembler machine source known
  have noFault' := fault_assemble assembler' machine' source knownOther
  obtain ⟨errors, fault, holds, _⟩ := assemble_eq_build assembler machine source
  obtain ⟨errors', _, holds', _⟩ := assemble_eq_build assembler' machine' source
  have succeeded : (Build.ofSource arch source).succeeded = true := by
    simp [Build.succeeded, ← errors, ← fault, noErrors, noFault]
  obtain ⟨succeeded', layout, image⟩ := succeeded_ofLines understands succeeded
  have noErrors' : (assembler'.assemble machine' source).errors = [] := by
    rw [errors']
    simp only [Build.succeeded, Bool.and_eq_true, List.isEmpty_iff] at succeeded'
    exact succeeded'.2
  refine ⟨noErrors', noFault', ?_, ?_, ?_, ?_, ?_⟩
  · rw [holds'.labels, holds.labels]
    exact layout.labels
  · rw [holds'.labelTexts, holds.labelTexts]
    exact layout.labelTexts
  · rw [holds'.sourceMap, holds.sourceMap]
    exact image.sourceMap
  · rw [machine_assemble _ _ _ noErrors' noFault', machine_assemble _ _ _ noErrors noFault,
      memory_commit _ _ (Machine.reachesStack other knownOther),
      memory_commit _ _ (Machine.reachesStack arch known), holds'.memory, holds.memory]
    exact image.memory
  · rw [machine_assemble _ _ _ noErrors' noFault', machine_assemble _ _ _ noErrors noFault,
      labels_commit _ _ (Machine.reachesStack other knownOther),
      labels_commit _ _ (Machine.reachesStack arch known), holds'.labelTexts, holds.labelTexts]
    exact layout.labelTexts

end Assembly

/-! ## Neander and Ahmes -/

namespace Catalog

/-- Neander is about to fetch an opcode as an assembler puts it out. -/
def FetchesAssembled (machine : Machine neander) : Prop :=
  machine.peek machine.counter &&& 0x0f = 0 ∧
    (neander.instruction? (machine.peek machine.counter)).isSome = true

theorem shares_of_fetchesAssembled {machine : Machine neander}
    (assembled : FetchesAssembled machine) :
    ∃ instruction counterpart, ahmes.Shares neander (machine.peek machine.counter) instruction
      counterpart := by
  obtain ⟨instruction, known⟩ := Option.isSome_iff_exists.mp assembled.2
  exact ⟨instruction, shares_of_check (sharesOpcode_ahmes _ assembled.1) known⟩

/--
Ahmes runs the programs of Neander: what is built without errors for Neander is
built in the same way for Ahmes, and from states that agree both machines make
steps that end in states that agree, as long as Neander fetches opcodes that an
assembler puts out.
-/
theorem ahmes_runs_neander :
    (∀ {before before' : Architecture} (assembler : Assembler before)
      (assembler' : Assembler before') (machine : Machine neander) (machine' : Machine ahmes)
      (source : String), (assembler.assemble machine source).errors = [] →
        (assembler'.assemble machine' source).errors = [] ∧
          (assembler'.assemble machine' source).fault = none ∧
          (assembler.assemble machine source).Same (assembler'.assemble machine' source)) ∧
    ∀ (machine : Machine neander) (machine' : Machine ahmes) (count : Nat),
      machine.Agrees machine' →
      (∀ done < count, ∀ between, Session.steps done machine = .ok () between →
        FetchesAssembled between) →
      ∃ after after', Session.steps count machine = .ok () after ∧
        Session.steps count machine' = .ok () after' ∧ after.Agrees after' := by
  have known : neander ∈ machines := by simp [machines]
  have knownAhmes : ahmes ∈ machines := by simp [machines]
  constructor
  · intro before before' assembler assembler' machine machine' source noErrors
    exact Assembler.same_assemble emulates_ahmes.toUnderstands known knownAhmes assembler assembler'
      machine machine' source noErrors
  · intro machine machine' count agrees assembled
    exact agrees.steps emulates_ahmes count fun done fewer between reached =>
      shares_of_fetchesAssembled (assembled done fewer between reached)

theorem agrees_new : (Machine.new neander).Agrees (Machine.new ahmes) where
  memory := rfl
  registers := rfl
  negative := by decide
  zero := by decide
  running := rfl
  instructionCount := rfl
  accessCount := rfl

/-- A loop that complements the accumulator, and jumps back while it is negative. -/
theorem ahmes_runs_neander_loop :
    let source := "loop: not\njn loop\nhlt"
    let built := (Assembler.new neander).assemble (Machine.new neander) source
    let rebuilt := (Assembler.new ahmes).assemble (Machine.new ahmes) source
    let machine := ((Machine.new neander).poke 0 0x60).poke 1 0x90
    let machine' := ((Machine.new ahmes).poke 0 0x60).poke 1 0x90
    built.errors = [] ∧ rebuilt.errors = [] ∧ built.Same rebuilt ∧
      ∃ after after', Session.steps 3 machine = .ok () after ∧
        Session.steps 3 machine' = .ok () after' ∧ after.Agrees after' := by
  intro source built rebuilt machine machine'
  have noErrors : built.errors = [] := by decide +kernel
  obtain ⟨noErrors', _, same⟩ := ahmes_runs_neander.1 _ _ _ _ _ noErrors
  have agrees : machine.Agrees machine' :=
    (agrees_new.poke emulates_ahmes.toUnderstands 0 0x60).poke emulates_ahmes.toUnderstands 1 0x90
  have fetched : ∀ done < 3, FetchesAssembled ((Session.steps done).after machine) := by
    unfold FetchesAssembled
    decide +kernel
  have assembled : ∀ done < 3, ∀ between, Session.steps done machine = .ok () between →
      FetchesAssembled between := by
    intro done fewer between reached
    have here := fetched done fewer
    rwa [Exec.after, reached] at here
  exact ⟨noErrors, noErrors', same, ahmes_runs_neander.2 machine machine' 3 agrees assembled⟩

end Catalog

end ClassroomCpu
