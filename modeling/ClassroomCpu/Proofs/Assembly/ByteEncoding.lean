import ClassroomCpu.Proofs.Assembly.ArgumentFit
import ClassroomCpu.Proofs.Assembly.WrittenInstruction
import Mathlib.Algebra.GroupWithZero.Nat

/-!
# The bytes of an instruction of a byte machine

An instruction of a byte machine names at most one register, and operands
behind it.  Its first byte is the opcode with the bits of the register and of
the first addressing mode; the bytes of the operands follow in their order.
-/

namespace ClassroomCpu

/-- Whether a parameter is an addressed operand. -/
def Parameter.isOperand : Parameter → Bool
  | operand _ => true
  | _ => false

namespace Instruction

/-- The parameters behind a register at the front. -/
def furtherParameters (instruction : Instruction) : List Parameter :=
  match instruction.parameters with
  | .register :: parameters => parameters
  | parameters => parameters

/-- Whether an instruction names at most a register, and operands behind it. -/
def hasByteShape (instruction : Instruction) : Bool :=
  instruction.furtherParameters.all Parameter.isOperand

/-- The first byte with the bits of a register and of an addressing mode. -/
def opcodeWith (instruction : Instruction) (register : Option RegisterSpec)
    (mode : Option AddressingMode) : UInt8 :=
  let selected :=
    match register with
    | some register => instruction.opcode ||| register.pattern.value
    | none => instruction.opcode
  match mode with
  | some mode => selected ||| mode.bits
  | none => selected

end Instruction

namespace Assembly

variable {arch : Architecture} {instruction : Instruction}

/-! ## The arguments -/

/-- The arguments that name a register, and operands behind it. -/
def byteArguments (register : Option RegisterSpec) (operands : List Operand) : List Argument :=
  register.toList.map .register ++ operands.map .operand

theorem operands_of_fits {sheet : Datasheet} {parameters : List Parameter}
    {arguments : List Argument} (operandsOnly : parameters.all Parameter.isOperand = true)
    (fits : List.Forall₂ (Argument.Fits sheet) parameters arguments) :
    ∃ operands : List Operand, arguments = operands.map .operand ∧
      operands.length = parameters.length ∧ ∀ operand ∈ operands, operand.Fits sheet := by
  induction fits with
  | nil => exact ⟨[], rfl, rfl, by simp⟩
  | @cons parameter argument parameters arguments fit _ induction =>
      simp only [List.all_cons, Bool.and_eq_true] at operandsOnly
      obtain ⟨operands, rfl, length, each⟩ := induction operandsOnly.2
      cases parameter with
      | operand name =>
          cases argument with
          | operand operand =>
              refine ⟨operand :: operands, rfl, by simp [length], ?_⟩
              intro other member
              rcases List.mem_cons.mp member with rfl | among
              · exact fit
              · exact each other among
          | _ => exact fit.elim
      | _ => simp [Parameter.isOperand] at operandsOnly

theorem contains_register_of_operands {parameters : List Parameter}
    (operandsOnly : parameters.all Parameter.isOperand = true) :
    parameters.contains .register = false := by
  rw [List.contains_eq_any_beq, List.any_eq_false]
  intro parameter member
  have isOperand := List.all_eq_true.mp operandsOnly parameter member
  cases parameter <;> simp_all [Parameter.isOperand]

/-- Arguments of a byte machine name a register exactly if the instruction asks for one. -/
theorem byteArguments_of_fits {sheet : Datasheet} {arguments : List Argument}
    (shape : instruction.hasByteShape = true)
    (fits : List.Forall₂ (Argument.Fits sheet) instruction.parameters arguments) :
    ∃ register operands, arguments = byteArguments register operands ∧
      register.isSome = instruction.selectsRegister ∧
      operands.length = instruction.furtherParameters.length ∧
      (∀ named ∈ register, Selectable sheet named) ∧
      ∀ operand ∈ operands, operand.Fits sheet := by
  unfold Instruction.hasByteShape Instruction.furtherParameters at shape
  unfold Instruction.selectsRegister Instruction.furtherParameters
  split at shape
  · rename_i parameters front
    rw [front] at fits ⊢
    cases fits with
    | @cons _ argument _ _ fit fitsFurther =>
        obtain ⟨operands, rfl, length, each⟩ := operands_of_fits shape fitsFurther
        cases argument with
        | register register =>
            have selectable : Selectable sheet register := fit
            exact ⟨some register, operands, rfl, by simp, length, by simpa using selectable, each⟩
        | _ => exact fit.elim
  · rename_i noRegister
    obtain ⟨operands, rfl, length, each⟩ := operands_of_fits shape fits
    refine ⟨none, operands, rfl, ?_, length, by simp, each⟩
    rw [contains_register_of_operands shape]
    rfl

/-! ## The bytes -/

/-- The bytes of some operands with the given values, one behind the other. -/
def operandBytes (arch : Architecture) : List Operand → List Int → List UInt8
  | operand :: operands, value :: values =>
      arch.byteOrder.encode (arch.operandBytes operand.mode.kind) value
        ++ operandBytes arch operands values
  | _, _ => []

theorem foldlM_operands {scope : Scope} {operands : List Operand} {parts result : ByteParts}
    (added : (operands.map Argument.operand).foldlM (ByteParts.addArgument scope arch) parts =
      .ok result) :
    ∃ values, List.Forall₂ (fun operand value =>
        ByteParts.operandValue scope arch operand = .ok value) operands values ∧
      result.operands = parts.operands ++ operandBytes arch operands values ∧
      result.opcode =
        match parts.kinds, operands.head? with
        | [], some operand => parts.opcode ||| operand.mode.bits
        | _, _ => parts.opcode := by
  induction operands generalizing parts with
  | nil =>
      rw [← Outcome.pure_eq_ok.mp added]
      exact ⟨[], .nil, by simp [operandBytes], by simp⟩
  | cons operand operands induction =>
      obtain ⟨middle, first, rest⟩ := Outcome.bind_eq_ok.mp added
      obtain ⟨value, given, done⟩ := Outcome.bind_eq_ok.mp first
      obtain ⟨values, givenRest, bytes, opcode⟩ := induction rest
      rw [← Outcome.pure_eq_ok.mp done] at bytes opcode
      refine ⟨value :: values, .cons given givenRest, by simp [bytes, operandBytes], ?_⟩
      rw [opcode]
      cases parts.kinds <;> simp

theorem foldlM_byteArguments {scope : Scope} {register : Option RegisterSpec}
    {operands : List Operand} {result : ByteParts}
    (added : (byteArguments register operands).foldlM (ByteParts.addArgument scope arch)
      ⟨instruction.opcode, [], []⟩ = .ok result) :
    ∃ values, List.Forall₂ (fun operand value =>
        ByteParts.operandValue scope arch operand = .ok value) operands values ∧
      result.operands = operandBytes arch operands values ∧
      result.opcode = instruction.opcodeWith register (operands.head?.map (·.mode)) := by
  cases register with
  | none =>
      obtain ⟨values, given, bytes, opcode⟩ := foldlM_operands added
      refine ⟨values, given, by simpa using bytes, ?_⟩
      rw [opcode]
      cases operands <;> rfl
  | some register =>
      obtain ⟨middle, first, rest⟩ := Outcome.bind_eq_ok.mp added
      rw [← Except.ok.inj first] at rest
      obtain ⟨values, given, bytes, opcode⟩ := foldlM_operands rest
      refine ⟨values, given, by simpa using bytes, ?_⟩
      rw [opcode]
      cases operands <;> rfl

theorem fitLength_length (bytes : List UInt8) : fitLength bytes.length bytes = bytes := by
  simp [fitLength]

theorem length_operandBytes {operands : List Operand} {values : List Int}
    (same : operands.length = values.length) :
    (operandBytes arch operands values).length =
      ((operands.map (·.mode.kind)).map arch.operandBytes).sum := by
  induction operands generalizing values with
  | nil => rfl
  | cons operand operands induction =>
      cases values with
      | nil => simp at same
      | cons value values =>
          simp only [List.length_cons, Nat.succ.injEq] at same
          simp [operandBytes, induction same]

end Assembly

/-- A byte machine whose instructions can be told from their first bytes. -/
structure Architecture.ByteSound (arch : Architecture) : Prop where
  model : arch.model ≠ .word
  /-- An immediate operand is a byte. -/
  immediate : arch.immediateBytes = 1
  shapes : ∀ instruction ∈ arch.instructions, instruction.hasByteShape = true
  /-- An operand is written by its value alone. -/
  forms : ∀ mode ∈ arch.addressingModes, ∀ items, Assembly.formItems mode.form = .ok items →
    items.contains .value = true ∧ items.contains .register = false
  /-- The size leaves room for the operands and for nothing else. -/
  sizes : ∀ instruction ∈ arch.instructions, ∀ kinds : List AddressingMode.Kind,
    kinds.length = instruction.furtherParameters.length →
      (∀ kind ∈ kinds, ∃ mode ∈ arch.addressingModes, mode.kind = kind) →
        arch.instructionBytes instruction kinds = 1 + (kinds.map arch.operandBytes).sum
  /-- The first byte tells the instruction, the register and the first addressing mode. -/
  decodes : ∀ instruction ∈ arch.instructions, ∀ register mode,
    register.isSome = instruction.selectsRegister →
      (∀ named ∈ register, Assembly.Selectable arch.toDatasheet named) →
        mode.isSome = !instruction.furtherParameters.isEmpty →
          (∀ chosen ∈ mode, chosen ∈ arch.addressingModes) →
            arch.instruction? (instruction.opcodeWith register mode) = some instruction ∧
              (∀ named ∈ register,
                arch.selectedName (instruction.opcodeWith register mode) = named.name) ∧
                ∀ chosen ∈ mode,
                  arch.addressingMode? (instruction.opcodeWith register mode) = some chosen

namespace Assembly

variable {arch : Architecture} {instruction : Instruction}

/-- What the arguments of an instruction of a byte machine are. -/
structure ByteFit (arch : Architecture) (instruction : Instruction)
    (register : Option RegisterSpec) (operands : List Operand) : Prop where
  known : instruction ∈ arch.instructions
  isSome : register.isSome = instruction.selectsRegister
  length : operands.length = instruction.furtherParameters.length
  register : ∀ named ∈ register, Selectable arch.toDatasheet named
  operands : ∀ operand ∈ operands, operand.Fits arch.toDatasheet

/-- A statement of a byte machine has arguments that fit. -/
theorem byteFit_of_written (sound : arch.ByteSound) {statement : String}
    {arguments : List Argument}
    (written : writtenInstruction? arch statement = some (instruction, arguments)) :
    ∃ register operands, arguments = byteArguments register operands ∧
      ByteFit arch instruction register operands := by
  have known := mem_instructions_of_written written
  obtain ⟨mnemonic, tokens, _, _, _, parsed⟩ := writtenInstruction?_eq_some.mp written
  obtain ⟨register, operands, same, isSome, length, selectable, fits⟩ :=
    byteArguments_of_fits (sound.shapes instruction known) (parseArguments_fits parsed)
  exact ⟨register, operands, same, known, isSome, length, selectable, fits⟩

namespace ByteFit

variable {register : Option RegisterSpec} {operands : List Operand}
  (fit : ByteFit arch instruction register operands)
include fit

/-- The first byte tells what was written. -/
theorem decodes (sound : arch.ByteSound) :
    let opcode := instruction.opcodeWith register (operands.head?.map (·.mode))
    arch.instruction? opcode = some instruction ∧
      (∀ named ∈ register, arch.selectedName opcode = named.name) ∧
        ∀ operand ∈ operands.head?, arch.addressingMode? opcode = some operand.mode := by
  have head : (operands.head?.map (·.mode)).isSome = !instruction.furtherParameters.isEmpty := by
    have length := fit.length
    cases operands <;> cases further : instruction.furtherParameters <;> simp_all
  have chosen : ∀ mode ∈ operands.head?.map (·.mode), mode ∈ arch.addressingModes := by
    intro mode member
    obtain ⟨operand, first, rfl⟩ := Option.map_eq_some_iff.mp member
    exact (fit.operands operand (List.mem_of_mem_head? first)).1
  obtain ⟨decoded, selected, moded⟩ :=
    sound.decodes instruction fit.known register _ fit.isSome fit.register head chosen
  refine ⟨decoded, selected, ?_⟩
  intro operand first
  exact moded operand.mode (Option.map_eq_some_iff.mpr ⟨operand, first, rfl⟩)

/-- An operand of a byte machine names a value. -/
theorem value (sound : arch.ByteSound) {operand : Operand} (member : operand ∈ operands) :
    ∃ token, operand.value = some token ∧ token.IsValue := by
  obtain ⟨known, items, lexed, parts⟩ := fit.operands operand member
  have named := parts.hasValue
  rw [(sound.forms operand.mode known items lexed).1] at named
  obtain ⟨token, given⟩ := Option.isSome_iff_exists.mp named
  exact ⟨token, given, parts.value token given⟩

/-- An operand of a byte machine names no register. -/
theorem register_eq_none (sound : arch.ByteSound) {operand : Operand}
    (member : operand ∈ operands) : operand.register = none := by
  obtain ⟨known, items, lexed, parts⟩ := fit.operands operand member
  have named := parts.hasRegister
  rw [(sound.forms operand.mode known items lexed).2] at named
  simpa using named

theorem instructionBytes_eq (sound : arch.ByteSound) :
    arch.instructionBytes instruction (operands.map (·.mode.kind)) =
      1 + ((operands.map (·.mode.kind)).map arch.operandBytes).sum := by
  apply sound.sizes instruction fit.known
  · simpa using fit.length
  · intro kind member
    obtain ⟨operand, among, rfl⟩ := List.mem_map.mp member
    exact ⟨operand.mode, (fit.operands operand among).1, rfl⟩

/-- An encoded instruction is its first byte with the bytes of its operands behind it. -/
theorem encodeBytes_eq (sound : arch.ByteSound) {scope : Scope} {bytes : List UInt8}
    (encoded : encodeBytes scope arch instruction (byteArguments register operands) =
      .ok bytes) :
    ∃ values, List.Forall₂ (fun operand value =>
        ByteParts.operandValue scope arch operand = .ok value) operands values ∧
      bytes = instruction.opcodeWith register (operands.head?.map (·.mode)) ::
        operandBytes arch operands values := by
  obtain ⟨parts, added, fitted⟩ := Outcome.bind_eq_ok.mp encoded
  obtain ⟨values, given, bytesEq, opcodeEq⟩ := foldlM_byteArguments added
  have kinds := ByteParts.kinds_foldlM added
  have onlyOperands : (byteArguments register operands).filterMap Argument.kind? =
      operands.map (·.mode.kind) := by
    cases register <;>
      simp [byteArguments, Argument.kind?, List.filterMap_cons, List.filterMap_map,
        Function.comp_def]
  rw [onlyOperands, List.nil_append] at kinds
  have size : arch.instructionBytes instruction parts.kinds =
      (parts.opcode :: parts.operands).length := by
    rw [kinds, fit.instructionBytes_eq sound, List.length_cons, bytesEq,
      length_operandBytes given.length_eq, Nat.add_comm]
  refine ⟨values, given, ?_⟩
  rw [← Outcome.pure_eq_ok.mp fitted, size, fitLength_length, opcodeEq, bytesEq]

end ByteFit

end Assembly

end ClassroomCpu
