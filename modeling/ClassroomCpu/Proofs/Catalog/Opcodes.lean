import ClassroomCpu.Catalog
import ClassroomCpu.Proofs.Assembly.ByteEncoding

/-!
# The opcodes of the byte machines of the catalog

On each byte machine the first byte of an instruction tells the instruction,
the register and the addressing mode that it was made of.  This is a fact about
the datasheets, and is checked for each choice that they leave.
-/

namespace ClassroomCpu.Catalog

open Assembly

/-- The registers that an instruction can select; none if it selects none. -/
def registerChoices (sheet : Datasheet) (instruction : Instruction) :
    List (Option RegisterSpec) :=
  if instruction.selectsRegister then
    (sheet.registers.filter fun register => !register.pattern.text.isEmpty).map some
  else [none]

/-- The modes that the first byte of an instruction can select; none without an operand. -/
def modeChoices (sheet : Datasheet) (instruction : Instruction) : List (Option AddressingMode) :=
  if instruction.furtherParameters.isEmpty then [none] else sheet.addressingModes.map some

/-- The kinds of addressing that some operands can have. -/
def kindChoices (sheet : Datasheet) : Nat → List (List AddressingMode.Kind)
  | 0 => [[]]
  | count + 1 =>
      sheet.addressingModes.flatMap fun mode =>
        (kindChoices sheet count).map fun kinds => mode.kind :: kinds

/-- Whether a first byte tells what it was made of. -/
def decodes (sheet : Datasheet) (instruction : Instruction) (register : Option RegisterSpec)
    (mode : Option AddressingMode) : Bool :=
  let opcode := instruction.opcodeWith register mode
  sheet.instruction? opcode == some instruction
    && (register.all fun named => sheet.selectedName opcode == named.name)
    && mode.all fun chosen => sheet.addressingMode? opcode == some chosen

/-- Whether the size of an instruction leaves room for its operands and for nothing else. -/
def fitsSize (sheet : Datasheet) (instruction : Instruction) : Bool :=
  (kindChoices sheet instruction.furtherParameters.length).all fun kinds =>
    sheet.instructionBytes instruction kinds == 1 + (kinds.map sheet.operandBytes).sum

/-- Whether the form of an addressing mode asks for a value and for no register. -/
def formIsValue (mode : AddressingMode) : Bool :=
  match formItems mode.form with
  | .ok items => items.contains .value && !items.contains .register
  | .error _ => true

theorem mem_registerChoices {sheet : Datasheet} {instruction : Instruction}
    {register : Option RegisterSpec} (isSome : register.isSome = instruction.selectsRegister)
    (selectable : ∀ named ∈ register, Selectable sheet named) :
    register ∈ registerChoices sheet instruction := by
  unfold registerChoices
  rw [← isSome]
  cases register with
  | none => simp
  | some named =>
      obtain ⟨known, selected⟩ := selectable named rfl
      simpa [known] using selected

theorem mem_modeChoices {sheet : Datasheet} {instruction : Instruction}
    {mode : Option AddressingMode}
    (isSome : mode.isSome = !instruction.furtherParameters.isEmpty)
    (known : ∀ chosen ∈ mode, chosen ∈ sheet.addressingModes) :
    mode ∈ modeChoices sheet instruction := by
  unfold modeChoices
  cases mode with
  | none => simp_all
  | some chosen =>
      have nonempty : instruction.furtherParameters.isEmpty = false := by simpa using isSome
      simpa [nonempty] using known chosen rfl

theorem mem_kindChoices {sheet : Datasheet} {kinds : List AddressingMode.Kind}
    (known : ∀ kind ∈ kinds, ∃ mode ∈ sheet.addressingModes, mode.kind = kind) :
    kinds ∈ kindChoices sheet kinds.length := by
  induction kinds with
  | nil => simp [kindChoices]
  | cons kind kinds induction =>
      obtain ⟨mode, member, rfl⟩ := known kind (by simp)
      have others := induction fun other among => known other (by simp [among])
      simp only [List.length_cons, kindChoices, List.mem_flatMap, List.mem_map]
      exact ⟨mode, member, kinds, others, rfl⟩

/-- A byte machine is sound if all choices are. -/
theorem byteSound_of_checks {arch : Architecture} (model : arch.model ≠ .word)
    (immediate : arch.immediateBytes = 1)
    (shapes : (arch.instructions.all Instruction.hasByteShape) = true)
    (forms : (arch.addressingModes.all formIsValue) = true)
    (sizes : (arch.instructions.all (fitsSize arch.toDatasheet)) = true)
    (decoded : (arch.instructions.all fun instruction =>
      (registerChoices arch.toDatasheet instruction).all fun register =>
        (modeChoices arch.toDatasheet instruction).all fun mode =>
          decodes arch.toDatasheet instruction register mode) = true) :
    arch.ByteSound where
  model := model
  immediate := immediate
  shapes := List.all_eq_true.mp shapes
  forms mode member items lexed := by
    have isValue := List.all_eq_true.mp forms mode member
    simpa [formIsValue, lexed] using isValue
  sizes instruction member kinds length known := by
    have fits := List.all_eq_true.mp
      (List.all_eq_true.mp sizes instruction member) kinds (length ▸ mem_kindChoices known)
    simpa using fits
  decodes instruction member register mode isSome selectable modeIsSome known := by
    have check := List.all_eq_true.mp (List.all_eq_true.mp
      (List.all_eq_true.mp decoded instruction member) register
        (mem_registerChoices isSome selectable)) mode (mem_modeChoices modeIsSome known)
    simp only [decodes, Bool.and_eq_true, beq_iff_eq, Option.all_eq_true_iff_get] at check
    refine ⟨check.1.1, ?_, ?_⟩
    · rintro named rfl
      simpa using check.1.2
    · rintro chosen rfl
      simpa using check.2

/-- Every byte machine of the catalog is sound. -/
theorem byteSound_of_byte : ∀ arch ∈ machines, arch.model ≠ .word → arch.ByteSound :=
  forall_byteMachine
    (byteSound_of_checks (by decide) rfl (by decide +kernel) (by decide +kernel)
      (by decide +kernel) (by decide +kernel))
    (byteSound_of_checks (by decide) rfl (by decide +kernel) (by decide +kernel)
      (by decide +kernel) (by decide +kernel))
    (byteSound_of_checks (by decide) rfl (by decide +kernel) (by decide +kernel)
      (by decide +kernel) (by decide +kernel))
    (byteSound_of_checks (by decide) rfl (by decide +kernel) (by decide +kernel)
      (by decide +kernel) (by decide +kernel))
    (byteSound_of_checks (by decide) rfl (by decide +kernel) (by decide +kernel)
      (by decide +kernel) (by decide +kernel))
    (byteSound_of_checks (by decide) rfl (by decide +kernel) (by decide +kernel)
      (by decide +kernel) (by decide +kernel))

end ClassroomCpu.Catalog
