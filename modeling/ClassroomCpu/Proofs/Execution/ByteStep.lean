import ClassroomCpu.Execution.Step
import ClassroomCpu.Machine.Listing
import ClassroomCpu.Proofs.Execution.ByteCounter
import ClassroomCpu.Proofs.Execution.Fetch

/-!
# Steps of a byte machine

The size of an instruction as it is shown is the number of bytes by which a
step moves the program counter, as long as the instruction does not go on
elsewhere.
-/

namespace ClassroomCpu

/-- The registers of a byte machine that instructions compute on are not its program counter. -/
structure Architecture.CounterApart (arch : Architecture) : Prop where
  working : ∀ opcode instruction, arch.instruction? opcode = some instruction →
    arch.workingRegister? instruction opcode ≠ some arch.counter
  stackPointer : arch.registerAt? arch.stackPointerName ≠ some arch.counter
  /-- A machine with indexed operands has the index register. -/
  index : ∀ opcode, arch.addressingKind opcode = .indexedByX →
    (arch.registerIndex? indexRegisterName).isSome = true
  /-- The program counter wraps around where memory does. -/
  size : arch.counterSize = arch.memorySize

namespace Machine

variable {arch : Architecture}

theorem size_instructionText_of_none {machine : Machine arch} {address : Nat}
    (unknown : arch.instruction? (machine.peek address) = none) :
    (machine.instructionText address).size = 1 := by
  simp [instructionText, unknown]

/-- The size that is shown is the number of bytes that the opcode stands for. -/
theorem size_instructionText_byte (byteMachine : arch.model ≠ .word) (machine : Machine arch)
    (address : Nat) :
    (machine.instructionText address).size = arch.opcodeBytes (machine.peek address) := by
  unfold instructionText Architecture.opcodeBytes
  dsimp only
  cases arch.instruction? (machine.peek address) with
  | none => rfl
  | some instruction =>
      dsimp only
      split
      · contradiction
      · rfl
      · rfl

theorem stackTop_pastFetch (machine : Machine arch)
    (apart : arch.registerAt? arch.stackPointerName ≠ some arch.counter)
    (instruction : Instruction) :
    (machine.pastFetch instruction).stackTop = machine.stackTop := by
  rw [stackTop, stackTop, register?_pastFetch machine apart, peekStack, peekStack,
    stack_pastFetch]

end Machine

theorem Instruction.leavesByte_congr {arch : Architecture} {machine other : Machine arch}
    (instruction : Instruction) (kind : AddressingMode.Kind)
    (status : other.status = machine.status) (top : other.stackTop = machine.stackTop) :
    instruction.leavesByte kind other = instruction.leavesByte kind machine := by
  simp [leavesByte, status, top]

namespace Exec

variable {arch : Architecture}

theorem keeps_countInstruction :
    Keeps (modify Machine.countInstruction : Exec arch PUnit) :=
  .of_modify fun _ => rfl

theorem step_of_byte (byteMachine : arch.model ≠ .word) :
    (step : Exec arch Unit) = (do byteInstruction; modify Machine.countInstruction) := by
  unfold step
  split
  · contradiction
  · rfl
  · rfl

/-- An undefined opcode is passed over. -/
theorem ends_byteInstruction_of_none {machine : Machine arch}
    (unknown : arch.instruction? (machine.peek machine.counter) = none) :
    Ends byteInstruction machine fun _ after =>
      after.counter = (machine.counter + 1) % arch.counterSize := by
  unfold byteInstruction
  exact .after (fetch_of_none unknown) (.of_pure machine.counter_pastOpcode)

section Known

variable {machine : Machine arch} {instruction : Instruction}
  (byteMachine : arch.model ≠ .word) (facts : arch.CounterApart)
  (known : arch.instruction? (machine.peek machine.counter) = some instruction)
include facts known

/-- What is fetched stays apart from the program counter. -/
theorem apart_fetched : (machine.fetched instruction).Apart := by
  have address (operandAddress : Nat) : Keeps (OperandAccess.effectiveAddress arch
      (arch.addressingKind (machine.peek machine.counter)) operandAddress) :=
    keeps_effectiveAddress (facts.index _)
  refine ⟨?_, address machine.pastOpcode.counter, ?_, ?_, facts.stackPointer⟩
  · simp only [Machine.fetched]
    exact facts.working _ _ known
  · exact (address machine.pastOpcode.counter).bind fun cell =>
      (keeps_readByte cell).bind fun _ => .of_pure _
  · exact fun first => keeps_readAddress _

include byteMachine in
/-- An instruction that does not go on elsewhere is passed over. -/
theorem ends_byteInstruction_of_stays
    (stays : instruction.leavesByte (arch.addressingKind (machine.peek machine.counter))
      machine = false) :
    Ends byteInstruction machine fun _ after =>
      after.counter =
        (machine.counter + arch.opcodeBytes (machine.peek machine.counter)) %
          arch.counterSize := by
  have size : arch.opcodeBytes (machine.peek machine.counter) =
      arch.instructionBytes instruction [arch.addressingKind (machine.peek machine.counter)] := by
    rw [Architecture.opcodeBytes, known]
  have staysFetched : instruction.leavesByte (machine.fetched instruction).kind
      (machine.pastFetch instruction) = false := by
    rw [← stays]
    exact instruction.leavesByte_congr _ (machine.status_pastFetch _)
      (machine.stackTop_pastFetch facts.stackPointer _)
  rw [size, ← machine.counter_pastFetch byteMachine instruction]
  unfold byteInstruction
  apply Ends.after (fetch_of_some known)
  dsimp only
  split
  · exact Fetched.ends_executeStack (apart_fetched facts known) staysFetched
  · exact Fetched.ends_executeStandard (apart_fetched facts known) staysFetched

/-- A skip that is taken passes over the instruction behind it, too. -/
theorem ends_byteInstruction_of_skip {test : SkipTest} (stack : arch.model = .stack)
    (single : instruction.size = 1) (operation : instruction.operation = .skip test)
    (taken : test.holds (Alu.signed 8 machine.stackTop) = true) :
    Ends byteInstruction machine fun _ after =>
      after.counter =
        (machine.counter + 1 + arch.opcodeBytes (machine.peek (machine.counter + 1))) %
          arch.counterSize := by
  have passed : machine.pastFetch instruction = machine.pastOpcode := by
    simp [Machine.pastFetch, Machine.pastOperand, Datasheet.instructionBytes, single]
  have top := machine.stackTop_pastFetch facts.stackPointer instruction
  rw [passed] at top
  rw [← top] at taken
  have ends := Fetched.ends_executeStack_skip (apart_fetched facts known) operation taken
  rw [machine.peek_pastOpcode facts.size, machine.counter_pastOpcode, Nat.mod_add_mod] at ends
  unfold byteInstruction
  apply Ends.after (fetch_of_some known)
  rw [passed]
  simp only [stack]
  exact ends

end Known

end Exec

end ClassroomCpu
