import ClassroomCpu.Proofs.Assembly.ByteEncoding
import ClassroomCpu.Proofs.Execution.ByteAgreement
import ClassroomCpu.Proofs.Execution.ByteStep

/-!
# Written instructions of byte machines

Where the bytes of a written instruction lie, a step does what was written.
-/

namespace ClassroomCpu

open Assembly

variable {arch : Architecture}

namespace Datasheet

/-- Only the kind of the first operand matters to the size of an instruction of a byte machine. -/
theorem instructionBytes_of_byte {sheet : Datasheet} (byteMachine : sheet.model ≠ .word)
    (instruction : Instruction) (kinds : List AddressingMode.Kind) :
    sheet.instructionBytes instruction kinds =
      if instruction.size ≠ 0 then instruction.size
      else 1 + sheet.operandBytes (kinds.headD .direct) := by
  unfold instructionBytes
  cases model : sheet.model with
  | word => contradiction
  | standard => rfl
  | stack => rfl

theorem operandBytes_of_ne_immediate {sheet : Datasheet} (byteMachine : sheet.model ≠ .word)
    {kind : AddressingMode.Kind} (noImmediate : kind ≠ .immediate) :
    sheet.operandBytes kind = sheet.addressBytes := by
  rw [operandBytes_of_byte byteMachine]
  cases kind with
  | immediate => exact absurd rfl noImmediate
  | _ => rfl

end Datasheet

/-- A byte machine whose operations have the operands on which they work. -/
structure Architecture.ByteOperands (arch : Architecture) : Prop where
  /-- An address has enough bytes. -/
  wide : arch.memorySize ≤ 256 ^ arch.addressBytes
  addressed : ∀ instruction ∈ arch.instructions,
    instruction.operation.isAddressed arch.model = true → instruction.furtherParameters ≠ []
  choice : ∀ instruction ∈ arch.instructions, instruction.operation = .choose →
    instruction.furtherParameters.length = 2 ∧
      ∀ mode ∈ arch.addressingModes, mode.kind ≠ .immediate

namespace Assembly

@[simp] theorem namedRegister?_byteArguments (register : Option RegisterSpec)
    (operands : List Operand) : namedRegister? (byteArguments register operands) = register := by
  have none_named : (operands.map Argument.operand).findSome? Argument.register? = none := by
    simp [Argument.register?]
  cases register with
  | none => simpa [namedRegister?, byteArguments] using none_named
  | some named => rfl

/-- The value of an operand of a byte machine: its number, or the address that this means. -/
theorem byteOperandValue_ok (immediateByte : arch.operandBytes .immediate = 1)
    {labels : LabelTable} {cursor : Nat} {operand : Operand} {token : Token}
    (named : operand.value = some token) {value : Int}
    (given : ByteParts.operandValue ⟨.emit, labels, cursor⟩ arch operand = .ok value) :
    operandNumber? labels token = some (operand.number labels) ∧
      value = if operand.mode.kind = .immediate then operand.number labels
        else (arch.wrap (operand.number labels) : Nat) := by
  unfold ByteParts.operandValue at given
  rw [named] at given
  simp only at given
  split at given
  · rename_i immediate
    rw [immediate, immediateByte] at given
    obtain ⟨number, _⟩ := immediate_ok Nat.one_pos given
    simp [Operand.number, named, number, immediate]
  · rename_i other
    obtain ⟨result, found, rfl⟩ := Outcome.map_eq_ok.mp given
    obtain ⟨address, located, same⟩ := Outcome.bind_eq_ok.mp found
    obtain ⟨number, stands, rfl⟩ := address_ok located
    rw [← Outcome.pure_eq_ok.mp same]
    simp [Operand.number, named, stands, other]

end Assembly

namespace Assembly.ByteFit

variable {instruction : Instruction} {register : Option RegisterSpec} {operands : List Operand}
  (fit : ByteFit arch instruction register operands)
include fit

/-- The kind of addressing can be told from the opcode. -/
theorem addressingKind_eq (sound : arch.ByteSound) {operand : Operand}
    (first : operands.head? = some operand) :
    arch.addressingKind (instruction.opcodeWith register (operands.head?.map (·.mode))) =
      operand.mode.kind := by
  obtain ⟨_, _, moded⟩ := fit.decodes sound
  simp only [Datasheet.addressingKind, moded operand first]

/-- The size can be told from the kind of the first operand; without one, any kind will do. -/
theorem instructionBytes_kind (sound : arch.ByteSound) {kind : AddressingMode.Kind}
    (first : ∀ operand ∈ operands.head?, kind = operand.mode.kind) :
    arch.instructionBytes instruction [kind] =
      arch.instructionBytes instruction (operands.map (·.mode.kind)) := by
  cases operands with
  | nil =>
      have size := fit.instructionBytes_eq sound
      rw [Datasheet.instructionBytes_of_byte sound.model] at size
      have direct : arch.operandBytes .direct = arch.addressBytes :=
        Datasheet.operandBytes_of_byte sound.model .direct
      have positive : 0 < arch.addressBytes := by
        unfold Datasheet.addressBytes
        split <;> omega
      by_cases fixed : instruction.size = 0
      · rw [if_neg (by simpa using fixed)] at size
        simp only [List.map_nil, List.headD_nil, List.sum_nil] at size
        omega
      · simp [Datasheet.instructionBytes, fixed]
  | cons operand operands =>
      rw [first operand rfl, Datasheet.instructionBytes_of_byte sound.model,
        Datasheet.instructionBytes_of_byte sound.model]
      rfl

/-- The size can be told from the opcode. -/
theorem instructionBytes_opcode (sound : arch.ByteSound) :
    arch.instructionBytes instruction
        [arch.addressingKind (instruction.opcodeWith register (operands.head?.map (·.mode)))] =
      arch.instructionBytes instruction (operands.map (·.mode.kind)) :=
  fit.instructionBytes_kind sound fun _ first => fit.addressingKind_eq sound first

end Assembly.ByteFit

/-! ## Steps -/

namespace Exec

section Fetched

variable (sound : arch.ByteSound) (operated : arch.ByteOperands) {labels : LabelTable}
  {instruction : Instruction} {register : Option RegisterSpec} {operands : List Operand}
  (fit : ByteFit arch instruction register operands) {cursor : Nat} {values : List Int}
  (given : List.Forall₂ (fun operand value =>
    ByteParts.operandValue ⟨.emit, labels, cursor⟩ arch operand = .ok value) operands values)
  {machine between : Machine arch} {own : Nat}
  (there : between.Holds own (operandBytes arch operands values))
include sound operated fit given there

end Fetched

end Exec

end ClassroomCpu
