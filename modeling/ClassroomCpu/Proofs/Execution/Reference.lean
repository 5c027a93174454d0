import ClassroomCpu.Proofs.Catalog.Opcodes
import ClassroomCpu.Proofs.Catalog.Registers
import ClassroomCpu.Proofs.Catalog.WordOpcodes
import ClassroomCpu.Proofs.Execution.ByteReference
import ClassroomCpu.Proofs.Execution.Total
import ClassroomCpu.Proofs.Execution.WordReference

/-!
# Steps do what was written

An operand is laid out in bytes where a program is assembled, and is found in
them where it is executed.  On every machine of the catalog a step at the bytes
of a statement does what the statement says.
-/

namespace ClassroomCpu

open Assembly

variable {arch : Architecture}

namespace Catalog

/-! ## The machines -/

/-- Whether the operations of a byte machine have the operands on which they work. -/
def hasByteOperands (arch : Architecture) : Bool :=
  decide (arch.memorySize ≤ 256 ^ arch.addressBytes)
    && arch.instructions.all fun instruction =>
      (!instruction.operation.isAddressed arch.model || !instruction.furtherParameters.isEmpty)
        && (instruction.operation != .choose
          || instruction.furtherParameters.length == 2
            && arch.addressingModes.all fun mode => mode.kind != .immediate)

theorem byteOperands_of_check (check : hasByteOperands arch = true) : arch.ByteOperands := by
  simp only [hasByteOperands, Bool.and_eq_true, decide_eq_true_eq, List.all_eq_true] at check
  refine ⟨check.1, ?_, ?_⟩
  · intro instruction known addressed
    simpa [addressed] using (check.2 instruction known).1
  · intro instruction known chooses
    simpa [chooses] using (check.2 instruction known).2

theorem hasStackPointer_cesar : cesar.HasStackPointer :=
  ⟨⟨6, by decide⟩, rfl⟩

theorem byteOperands_of_byte : ∀ arch ∈ machines, arch.model ≠ .word → arch.ByteOperands :=
  forall_byteMachine (byteOperands_of_check (by decide +kernel))
    (byteOperands_of_check (by decide +kernel)) (byteOperands_of_check (by decide +kernel))
    (byteOperands_of_check (by decide +kernel)) (byteOperands_of_check (by decide +kernel))
    (byteOperands_of_check (by decide +kernel))

/-- Every machine of the catalog is sound in the way of its model. -/
theorem byte_or_word :
    ∀ arch ∈ machines, arch.ByteSound ∧ arch.ByteOperands ∧ arch.CounterApart ∨
      arch.WordSound ∧ arch.WordRegular ∧ arch.HasStackPointer := by
  intro arch member
  by_cases model : arch.model = .word
  · obtain rfl := eq_cesar_of_word arch member model
    exact .inr ⟨wordSound_cesar, wordRegular_cesar, hasStackPointer_cesar⟩
  · exact .inl ⟨byteSound_of_byte arch member model, byteOperands_of_byte arch member model,
      counterApart_of_byte arch member model⟩

end Catalog

/-! ## Resolved texts -/

namespace Assembly

variable {labels : LabelTable} {cursor : Nat} {instruction : Instruction}

end Assembly

namespace Exec

end Exec

end ClassroomCpu
