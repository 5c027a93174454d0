import ClassroomCpu.Catalog
import ClassroomCpu.Proofs.Assembly.WordEncoding

/-!
# The opcodes of the word machine of the catalog

The first byte of an instruction of Cesar tells the instruction, and the bits
of an operand tell its addressing mode and its register.
-/

namespace ClassroomCpu.Catalog

open Assembly

/-- Whether the first bytes of an instruction of a word machine tell it. -/
def decodesWord (sheet : Datasheet) (instruction : Instruction) : Bool :=
  instruction.opcode.toNat % instruction.operation.format.choices == 0
    && (List.range instruction.operation.format.choices).all fun number =>
      sheet.instruction? (instruction.opcodePlus number) == some instruction

/-- Whether a register that operands can name is found under its name and at its place. -/
def findsName (arch : Architecture) (named : RegisterSpec) : Bool :=
  (arch.registerAt? named.name).any fun index =>
    arch.registers.get index == named && WordParts.registerNumber named == index

/-- Whether the form of a mode of a word machine asks for what an operand needs. -/
def formFitsWord (sheet : Datasheet) (mode : AddressingMode) : Bool :=
  match formItems mode.form with
  | .ok items =>
      (items.contains .value == (sheet.operandBytes mode.kind == 2))
        && (items.contains .register == !mode.followsOpcode)
  | .error _ => true

/-- The registers that a mode of a word machine can be written with. -/
def operandRegisters (sheet : Datasheet) (mode : AddressingMode) : List (Option RegisterSpec) :=
  if mode.followsOpcode then [none]
  else (sheet.registers.filter fun register => !register.pattern.text.isEmpty).map some

/-- Whether the bits of an operand tell its mode and its register. -/
def decodesOperand (arch : Architecture) (mode : AddressingMode)
    (register : Option RegisterSpec) : Bool :=
  let operand : Operand := ⟨⟨none, register⟩, mode⟩
  let bits := WordParts.operandBits operand
  decide (bits < 64) && bits % 8 == arch.operandPlace register
    && (mode.kind.increments && operand.namesCounter arch
      || arch.wordAddressingMode? (UInt8.ofNat bits) == some mode)

theorem mem_operandRegisters {sheet : Datasheet} {mode : AddressingMode}
    {register : Option RegisterSpec} (isSome : register.isSome = !mode.followsOpcode)
    (selectable : ∀ named ∈ register, Selectable sheet named) :
    register ∈ operandRegisters sheet mode := by
  unfold operandRegisters
  cases register with
  | none =>
      have follows : mode.followsOpcode = true := by simpa using isSome
      simp [follows]
  | some named =>
      have names : mode.followsOpcode = false := by simpa using isSome
      obtain ⟨known, selected⟩ := selectable named rfl
      simpa [names, known] using selected

theorem wordSound_cesar : cesar.WordSound where
  model := rfl
  formats := by decide +kernel
  decodes := by
    have checks : (cesar.instructions.all (decodesWord cesar.toDatasheet)) = true := by
      decide +kernel
    intro instruction member
    simpa [decodesWord] using List.all_eq_true.mp checks instruction member
  names := by
    have checks : (cesar.registers.all fun named =>
        named.pattern.text.isEmpty || findsName cesar named) = true := by decide +kernel
    intro named selectable
    have check := List.all_eq_true.mp checks named selectable.1
    rw [selectable.2, Bool.false_or] at check
    obtain ⟨index, found, same⟩ := Option.any_eq_true _ _ |>.mp check
    exact ⟨index, found, by simpa using same⟩
  forms mode member items lexed := by
    have checks : (cesar.addressingModes.all (formFitsWord cesar.toDatasheet)) = true := by
      decide +kernel
    have check := List.all_eq_true.mp checks mode member
    simpa [formFitsWord, lexed] using check
  operands mode member register isSome selectable := by
    have checks : (cesar.addressingModes.all fun mode =>
        (operandRegisters cesar.toDatasheet mode).all (decodesOperand cesar mode)) = true := by
      decide +kernel
    have check := List.all_eq_true.mp (List.all_eq_true.mp checks mode member) register
      (mem_operandRegisters isSome selectable)
    simp only [decodesOperand, Bool.and_eq_true, decide_eq_true_eq, beq_iff_eq,
      Bool.or_eq_true] at check
    refine ⟨check.1.1, check.1.2, fun apart => ?_⟩
    rcases check.2 with ⟨increments, names⟩ | moded
    · rw [apart increments] at names
      exact absurd names Bool.false_ne_true
    · exact moded

end ClassroomCpu.Catalog
