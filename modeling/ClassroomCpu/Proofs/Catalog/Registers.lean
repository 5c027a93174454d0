import ClassroomCpu.Catalog
import ClassroomCpu.Proofs.Execution.ByteStep
import ClassroomCpu.Proofs.Execution.WordStep

/-!
# The registers of the machines of the catalog

On each machine the program counter wraps around with memory, and no
instruction computes on it by accident.  These facts are about the datasheets
alone, and are checked byte by byte.
-/

namespace ClassroomCpu.Catalog

/-! ## Byte machines -/

/-- A register without a pattern is selected by no opcode. -/
theorem isMatch_of_isEmpty {pattern : BitPattern} (nothing : pattern.text.isEmpty = true)
    (byte : UInt8) : pattern.isMatch byte = false := by
  have text : pattern.text = "" := by simpa using nothing
  simp [BitPattern.isMatch, text, BitPattern.symbols, BitPattern.agrees]

/-- A name that leads to a register is its name, up to the case of letters. -/
theorem sameLetters_of_registerAt? {arch : Architecture} {name : String}
    {index : Fin arch.registers.length} (found : arch.registerAt? name = some index) :
    Text.sameLetters (arch.registers.get index).name name = true := by
  unfold Architecture.registerAt? Datasheet.registerIndex? at found
  split at found
  · simp at found
  · exact (List.findFinIdx?_eq_some_iff.mp found).1

/-- Whether no instruction can name the program counter, or lacks an index register. -/
def namesApart (arch : Architecture) : Bool :=
  let counter := (arch.registers.get arch.counter).name
  arch.registers.all (fun register =>
      register.pattern.text.isEmpty || !Text.sameLetters counter register.name)
    && !Text.sameLetters counter arch.accumulatorName
    && !Text.sameLetters counter arch.stackPointerName
    && !Text.sameLetters counter ""
    && (arch.addressingModes.all (fun mode => mode.kind != .indexedByX)
      || (arch.registerIndex? indexRegisterName).isSome)

theorem selectedName_apart {arch : Architecture} (apart : namesApart arch = true)
    (opcode : UInt8) :
    Text.sameLetters (arch.registers.get arch.counter).name (arch.selectedName opcode) =
      false := by
  simp only [namesApart, Bool.and_eq_true, List.all_eq_true, Bool.or_eq_true] at apart
  unfold Datasheet.selectedName
  split
  · rename_i register found
    rcases apart.1.1.1.1 register (List.mem_of_find?_eq_some found) with nothing | other
    · have selected := List.find?_some found
      rw [isMatch_of_isEmpty nothing] at selected
      exact absurd selected Bool.false_ne_true
    · simpa using other
  · simpa using apart.1.2

theorem counterApart_of_namesApart {arch : Architecture} (apart : namesApart arch = true)
    (size : arch.counterSize = arch.memorySize) : arch.CounterApart := by
  have selected := selectedName_apart apart
  simp only [namesApart, Bool.and_eq_true, Bool.not_eq_true', Bool.or_eq_true] at apart
  obtain ⟨⟨⟨⟨_, accumulator⟩, stackPointer⟩, _⟩, index⟩ := apart
  refine ⟨?_, ?_, ?_, size⟩
  · intro opcode instruction _ found
    have same := sameLetters_of_registerAt? found
    split at same
    · rw [selected opcode] at same
      exact absurd same Bool.false_ne_true
    · rw [accumulator] at same
      exact absurd same Bool.false_ne_true
  · intro found
    have same := sameLetters_of_registerAt? found
    rw [stackPointer] at same
    exact absurd same Bool.false_ne_true
  · intro opcode indexed
    rcases index with noMode | known
    · unfold Datasheet.addressingKind at indexed
      split at indexed
      · rename_i mode found
        have other := List.all_eq_true.mp noMode mode (List.mem_of_find?_eq_some found)
        simp [indexed] at other
      · contradiction
    · exact known

theorem counterApart_of_byte : ∀ arch ∈ machines, arch.model ≠ .word → arch.CounterApart :=
  forall_byteMachine (counterApart_of_namesApart (by decide +kernel) (by decide +kernel))
    (counterApart_of_namesApart (by decide +kernel) (by decide +kernel))
    (counterApart_of_namesApart (by decide +kernel) (by decide +kernel))
    (counterApart_of_namesApart (by decide +kernel) (by decide +kernel))
    (counterApart_of_namesApart (by decide +kernel) (by decide +kernel))
    (counterApart_of_namesApart (by decide +kernel) (by decide +kernel))

/-! ## The word machine -/

/-- Whether the way that the bits of an operand select goes through the program counter rightly. -/
def wayChecks (arch : Architecture) (bits : UInt8) : Bool :=
  let through := FetchedWord.registerNumber bits == arch.counter
  match Exec.operandKind arch bits with
  | .immediate | .direct => through
  | .postIncrement | .postIncrementIndirect => !through
  | .indirect | .indexedByX | .indexedByCounter => false
  | _ => true

theorem wayChecks_cesar (bits : UInt8) : wayChecks cesar bits = true :=
  forall_byte (motive := fun bits => wayChecks cesar bits = true) (by decide +kernel) bits

theorem wordRegular_cesar : cesar.WordRegular where
  model := rfl
  registers := rfl
  size := by decide
  wide := by decide
  through bits kind := by
    have check := wayChecks_cesar bits
    unfold wayChecks at check
    rcases kind with immediate | direct
    · simpa [immediate] using check
    · simpa [direct] using check
  apart bits kind := by
    have check := wayChecks_cesar bits
    unfold wayChecks at check
    rcases kind with increment | indirect
    · simpa [increment] using check
    · simpa [indirect] using check
  isWordKind bits := by
    have check := wayChecks_cesar bits
    unfold wayChecks at check
    refine ⟨?_, ?_, ?_⟩ <;> intro kind <;> simp [kind] at check
  shapes := by decide +kernel

end ClassroomCpu.Catalog
