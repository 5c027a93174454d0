import ClassroomCpu.Execution.Step
import ClassroomCpu.Proofs.Execution.ControlFlow
import ClassroomCpu.Proofs.Execution.Fetch

/-!
# Fetching an instruction of a word machine

A word machine reads the opcode and, unless the instruction takes a single byte,
the byte behind it.  The words of the operands are read when the operands are
found.
-/

namespace ClassroomCpu

variable {arch : Architecture}

namespace Machine

variable (machine : Machine arch) {instruction : Instruction}

/-- The instruction of a word machine at the program counter, as it is fetched. -/
def fetchedWord (instruction : Instruction) : FetchedWord arch :=
  .ofBytes arch instruction (machine.peek machine.counter) (machine.secondByte instruction)

/-- The machine once it has fetched an instruction of a word machine at the program counter. -/
def pastWordFetch (instruction : Instruction) : Machine arch :=
  if instruction.size = 1 then machine.pastOpcode else machine.pastOpcode.pastOpcode

theorem fetchedWord_of_single (single : instruction.size = 1) :
    machine.fetchedWord instruction =
      .ofBytes arch instruction (machine.peek machine.counter) 0 := by
  rw [fetchedWord, secondByte, if_pos single]

theorem fetchedWord_of_double (double : instruction.size ≠ 1) :
    machine.fetchedWord instruction =
      .ofBytes arch instruction (machine.peek machine.counter)
        (machine.peek (machine.counter + 1)) := by
  rw [fetchedWord, secondByte, if_neg double]

theorem pastWordFetch_of_single (single : instruction.size = 1) :
    machine.pastWordFetch instruction = machine.pastOpcode :=
  if_pos single

theorem pastWordFetch_of_double (double : instruction.size ≠ 1) :
    machine.pastWordFetch instruction = machine.pastOpcode.pastOpcode :=
  if_neg double

theorem counter_pastTwo :
    machine.pastOpcode.pastOpcode.counter = (machine.counter + 2) % arch.counterSize := by
  rw [counter_pastOpcode, counter_pastOpcode, Nat.mod_add_mod]

/-- Fetching moves the program counter by the bytes that are read. -/
theorem counter_pastWordFetch (instruction : Instruction) :
    (machine.pastWordFetch instruction).counter =
      (machine.counter + if instruction.size = 1 then 1 else 2) % arch.counterSize := by
  unfold pastWordFetch
  split
  · exact machine.counter_pastOpcode
  · exact machine.counter_pastTwo

end Machine

namespace Exec

variable {machine : Machine arch} {instruction : Instruction}

theorem wordInstruction_of_none
    (unknown : arch.instruction? (machine.peek machine.counter) = none) :
    wordInstruction machine = .ok () machine.pastOpcode := by
  unfold wordInstruction
  rw [bind_of_ok (fetchByte_apply machine), unknown]
  rfl

/-- What a word machine has fetched is executed. -/
theorem wordInstruction_of_some (wraps : arch.counterSize = arch.memorySize)
    (known : arch.instruction? (machine.peek machine.counter) = some instruction) :
    wordInstruction machine =
      (machine.fetchedWord instruction).execute (machine.pastWordFetch instruction) := by
  unfold wordInstruction
  rw [bind_of_ok (fetchByte_apply machine), known]
  by_cases single : instruction.size = 1
  · rw [machine.fetchedWord_of_single single, machine.pastWordFetch_of_single single]
    simp only [single, ne_eq, not_true_eq_false, if_false]
    rfl
  · rw [machine.fetchedWord_of_double single, machine.pastWordFetch_of_double single,
      ← machine.peek_pastOpcode wraps]
    simp only [single, ne_eq, not_false_eq_true, if_true]
    rfl

theorem Ends.fetched (wraps : arch.counterSize = arch.memorySize)
    (known : arch.instruction? (machine.peek machine.counter) = some instruction)
    {described : Unit → Machine arch → Prop}
    (ends : Ends (machine.fetchedWord instruction).execute (machine.pastWordFetch instruction)
      described) :
    Ends wordInstruction machine described := by
  obtain ⟨_, _, executed, holds⟩ := ends
  exact .of_eq ((wordInstruction_of_some wraps known).trans executed) holds

end Exec

end ClassroomCpu
