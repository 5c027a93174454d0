import ClassroomCpu.Proofs.Execution.Access

/-!
# Fetching an instruction

A byte machine counts the access to the opcode and moves the program counter
behind the operand, which it does not look at yet.
-/

namespace ClassroomCpu

namespace Datasheet

/-- Every instruction of a byte machine takes a byte. -/
theorem instructionBytes_pos {sheet : Datasheet} (byteMachine : sheet.model ≠ .word)
    (instruction : Instruction) (kinds : List AddressingMode.Kind) :
    0 < sheet.instructionBytes instruction kinds := by
  unfold instructionBytes
  split
  · omega
  · split
    · contradiction
    · omega
    · omega

end Datasheet

namespace Machine

variable {arch : Architecture} (machine : Machine arch)

/-- The machine once it has read the opcode at the program counter. -/
def pastOpcode : Machine arch :=
  machine.countAccess.setCounter (machine.counter + 1)

/-- The machine once it has passed over an operand, of an instruction of the given size. -/
def pastOperand (size : Nat) : Machine arch :=
  if size ≠ 1 then machine.setCounter ((machine.counter : Int) + size - 1) else machine

/-- The instruction of a byte machine at the program counter, as it is fetched. -/
def fetched (instruction : Instruction) : Fetched arch where
  instruction
  register := arch.workingRegister? instruction (machine.peek machine.counter)
  kind := arch.addressingKind (machine.peek machine.counter)
  operand := .inMemory arch (arch.addressingKind (machine.peek machine.counter))
    machine.pastOpcode.counter

/-- The machine once it has fetched an instruction of a byte machine at the program counter. -/
def pastFetch (instruction : Instruction) : Machine arch :=
  machine.pastOpcode.pastOperand
    (arch.instructionBytes instruction [arch.addressingKind (machine.peek machine.counter)])

@[simp] theorem memory_pastOpcode : machine.pastOpcode.memory = machine.memory := rfl

@[simp] theorem memory_pastOperand (size : Nat) :
    (machine.pastOperand size).memory = machine.memory := by
  unfold pastOperand
  split <;> rfl

@[simp] theorem memory_pastFetch (instruction : Instruction) :
    (machine.pastFetch instruction).memory = machine.memory :=
  memory_pastOperand _ _

@[simp] theorem status_pastOpcode : machine.pastOpcode.status = machine.status := rfl

@[simp] theorem status_pastFetch (instruction : Instruction) :
    (machine.pastFetch instruction).status = machine.status := by
  unfold pastFetch pastOperand
  split <;> rfl

@[simp] theorem stack_pastFetch (instruction : Instruction) :
    (machine.pastFetch instruction).stack = machine.stack := by
  unfold pastFetch pastOperand
  split <;> rfl

theorem register_pastOpcode {index : Fin arch.registers.length} (other : index ≠ arch.counter) :
    machine.pastOpcode.register index = machine.register index := by
  rw [pastOpcode, register_setCounter _ other]
  rfl

theorem register?_pastFetch {index : Option (Fin arch.registers.length)}
    (other : index ≠ some arch.counter) (instruction : Instruction) :
    (machine.pastFetch instruction).register? index = machine.register? index := by
  have opcode : machine.pastOpcode.register? index = machine.register? index := by
    rw [pastOpcode, register?_setCounter _ other]
    cases index <;> rfl
  unfold pastFetch pastOperand
  split
  · rw [register?_setCounter _ other, opcode]
  · exact opcode

theorem counter_pastOpcode :
    machine.pastOpcode.counter = (machine.counter + 1) % arch.counterSize :=
  machine.countAccess.counter_setCounter_natCast (machine.counter + 1)

/-- Behind the opcode stands what stood there before. -/
theorem peek_pastOpcode (wraps : arch.counterSize = arch.memorySize) :
    machine.pastOpcode.peek machine.pastOpcode.counter = machine.peek (machine.counter + 1) := by
  simp only [peek, memory_pastOpcode, counter_pastOpcode, wraps, Architecture.cell, Nat.mod_mod]

theorem counter_pastOperand {size : Nat} (positive : 0 < size) :
    (machine.pastOpcode.pastOperand size).counter =
      (machine.counter + size) % arch.counterSize := by
  unfold pastOperand
  split
  · have next : (machine.pastOpcode.counter : Int) + size - 1 =
        ((machine.pastOpcode.counter + (size - 1) : Nat) : Int) := by omega
    rw [next, counter_setCounter_natCast, counter_pastOpcode, Nat.mod_add_mod]
    congr 1
    omega
  · rename_i single
    rw [counter_pastOpcode, Decidable.not_not.mp single]

/-- Opcode and operand together move the program counter by the size of the instruction. -/
theorem counter_pastFetch (byteMachine : arch.model ≠ .word) (instruction : Instruction) :
    (machine.pastFetch instruction).counter =
      (machine.counter + arch.instructionBytes instruction
        [arch.addressingKind (machine.peek machine.counter)]) % arch.counterSize :=
  machine.counter_pastOperand (Datasheet.instructionBytes_pos byteMachine instruction _)

end Machine

namespace Exec

variable {arch : Architecture}

theorem passOperand_apply (size : Nat) (machine : Machine arch) :
    passOperand size machine = .ok () (machine.pastOperand size) := by
  unfold passOperand Machine.pastOperand
  rw [bind_of_ok (counter_apply machine)]
  split <;> rfl

theorem fetch_of_none {machine : Machine arch}
    (unknown : arch.instruction? (machine.peek machine.counter) = none) :
    fetch machine = .ok none machine.pastOpcode := by
  unfold fetch
  rw [bind_of_ok (fetchByte_apply machine), unknown]
  rfl

theorem fetch_of_some {machine : Machine arch} {instruction : Instruction}
    (known : arch.instruction? (machine.peek machine.counter) = some instruction) :
    fetch machine =
      .ok (some (machine.fetched instruction)) (machine.pastFetch instruction) := by
  unfold fetch
  rw [bind_of_ok (fetchByte_apply machine), known]
  dsimp only
  rw [bind_of_ok (counter_apply _), bind_of_ok (passOperand_apply _ _)]
  rfl

end Exec

end ClassroomCpu
