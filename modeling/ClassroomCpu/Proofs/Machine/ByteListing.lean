import ClassroomCpu.Proofs.Assembly.ArgumentText
import ClassroomCpu.Proofs.Assembly.Reencoding
import ClassroomCpu.Proofs.Execution.ByteReference

/-!
# Instruction texts of byte machines

Where the bytes of a written instruction lie, the instruction is shown with the
numbers that its operands were encoded from, up to what the bytes cannot hold.
-/

namespace ClassroomCpu

open Assembly

variable {arch : Architecture}

namespace Assembly

/-! ## Operands -/

/-- The number that is shown for an operand that was encoded from a value. -/
def shownNumber (arch : Architecture) (operand : Operand) (value : Int) : Int :=
  value % 256 ^ arch.operandBytes operand.mode.kind

/-- The operands as they are shown, with numbers for values. -/
def toldOperands (arch : Architecture) (operands : List Operand) (values : List Int) :
    List Operand :=
  (operands.zip values).map fun (operand, value) =>
    operand.withNumber (shownNumber arch operand value)

theorem addressBytes_le_two (sheet : Datasheet) : sheet.addressBytes ≤ 2 := by
  unfold Datasheet.addressBytes
  split <;> omega

section Byte

variable (sound : arch.ByteSound) (operated : arch.ByteOperands)

include sound in
theorem operandBytes_immediate : arch.operandBytes .immediate = 1 := by
  rw [Datasheet.operandBytes_of_byte sound.model, sound.immediate]

include sound in
theorem operandBytes_le_two (kind : AddressingMode.Kind) : arch.operandBytes kind ≤ 2 := by
  by_cases immediate : kind = .immediate
  · rw [immediate, operandBytes_immediate sound]
    decide
  · rw [Datasheet.operandBytes_of_ne_immediate sound.model immediate]
    exact addressBytes_le_two arch.toDatasheet

include sound in
theorem shownNumber_bounds (operand : Operand) (value : Int) :
    0 ≤ shownNumber arch operand value ∧ shownNumber arch operand value < 65536 := by
  have width : arch.operandBytes operand.mode.kind = 0 ∨
      arch.operandBytes operand.mode.kind = 1 ∨ arch.operandBytes operand.mode.kind = 2 := by
    have most := operandBytes_le_two sound operand.mode.kind
    omega
  unfold shownNumber
  rcases width with none | one | two
  · rw [none]
    omega
  · rw [one]
    omega
  · rw [two]
    omega

/-- A number that an operand in a mode of the given kind can be written with. -/
def Addresses (arch : Architecture) (kind : AddressingMode.Kind) (number : Nat) : Prop :=
  number < 256 ^ arch.operandBytes kind ∧ (kind ≠ .immediate → number < arch.memorySize)

include sound operated in
/-- A number that passes the checks stands for itself wherever it stands. -/
theorem operandValue_of_addresses {operand : Operand} {number : Nat}
    (named : operand.value = some (.word (Text.signedDecimal number)))
    (addresses : Addresses arch operand.mode.kind number) {labels : LabelTable}
    (wellFormed : labels.WellFormed) (cursor : Nat) :
    ByteParts.operandValue ⟨.emit, labels, cursor⟩ arch operand = .ok number := by
  obtain ⟨small, inside⟩ := addresses
  have size : literalBound = 9223372036854775808 := rfl
  simp only [ByteParts.operandValue, named]
  by_cases immediate : operand.mode.kind = .immediate
  · rw [immediate, operandBytes_immediate sound] at small
    rw [if_pos immediate, immediate, operandBytes_immediate sound]
    apply immediate_signedDecimal wellFormed (by omega) cursor
    have power : powerOfTwo (8 * 1) = 256 := rfl
    rw [Bounds.holds_iff]
    simp only [Bounds.ofBytes, power]
    omega
  · have bounded : arch.memorySize < literalBound := by
      have wide := operated.wide
      have most : 256 ^ arch.addressBytes ≤ 256 ^ 2 :=
        Nat.pow_le_pow_right (by decide) (addressBytes_le_two arch.toDatasheet)
      omega
    rw [if_neg immediate, address_signedDecimal wellFormed bounded (inside immediate) cursor]
    rfl

include sound operated in
/-- The number that is shown is one that the operand can be written with. -/
theorem addresses_shownNumber {labels : LabelTable} {cursor : Nat} {operand : Operand}
    {token : Token} (named : operand.value = some token) {value : Int}
    (given : ByteParts.operandValue ⟨.emit, labels, cursor⟩ arch operand = .ok value) :
    ∃ number : Nat, shownNumber arch operand value = number ∧
      Addresses arch operand.mode.kind number := by
  have stands := (byteOperandValue_ok (operandBytes_immediate sound) named given).2
  have power (width : Nat) : ((256 ^ width : Nat) : Int) = 256 ^ width := Int.natCast_pow 256 width
  have positive : (0 : Int) < 256 ^ arch.operandBytes operand.mode.kind := Int.pow_pos (by decide)
  have low : 0 ≤ shownNumber arch operand value := Int.emod_nonneg _ (Int.ne_of_gt positive)
  have high : shownNumber arch operand value < 256 ^ arch.operandBytes operand.mode.kind :=
    Int.emod_lt_of_pos _ positive
  obtain ⟨number, same⟩ := Int.eq_ofNat_of_zero_le low
  refine ⟨number, same, ?_, fun other => ?_⟩
  · rw [same, ← power] at high
    exact Int.ofNat_lt.mp high
  · rw [if_neg other] at stands
    have address := (arch.wrap (operand.number labels)).isLt
    have wide := operated.wide
    rw [shownNumber, stands, Datasheet.operandBytes_of_ne_immediate sound.model other, ← power,
      Int.emod_eq_of_lt (by omega) (by omega)] at same
    omega

include sound operated in
/-- The number that is shown stands for itself wherever it stands. -/
theorem operandValue_withNumber {labels later : LabelTable} (wellFormed : later.WellFormed)
    {cursor : Nat} (place : Nat) {operand : Operand} {token : Token}
    (named : operand.value = some token) {value : Int}
    (given : ByteParts.operandValue ⟨.emit, labels, cursor⟩ arch operand = .ok value) :
    ByteParts.operandValue ⟨.emit, later, place⟩ arch
        (operand.withNumber (shownNumber arch operand value)) =
      .ok (shownNumber arch operand value) := by
  obtain ⟨number, same, addresses⟩ := addresses_shownNumber sound operated named given
  rw [same]
  have numbered : (operand.withNumber number).value =
      some (.word (Text.signedDecimal number)) := by
    simp [Operand.withNumber, named]
  exact operandValue_of_addresses sound operated numbered addresses wellFormed place

include sound operated in
theorem addsTheSame_withNumber {labels later : LabelTable} (wellFormed : later.WellFormed)
    {cursor : Nat} (place : Nat) {operand : Operand} {token : Token}
    (named : operand.value = some token) {value : Int}
    (given : ByteParts.operandValue ⟨.emit, labels, cursor⟩ arch operand = .ok value) :
    AddsTheSame (ByteParts.addArgument ⟨.emit, labels, cursor⟩ arch)
      (ByteParts.addArgument ⟨.emit, later, place⟩ arch) (.operand operand)
      (.operand (operand.withNumber (shownNumber arch operand value))) := by
  intro parts result added
  have again := operandValue_withNumber sound operated wellFormed place named given
  obtain ⟨other, same, done⟩ := Outcome.bind_eq_ok.mp added
  rw [given] at same
  obtain rfl := Except.ok.inj same
  refine Outcome.bind_eq_ok.mpr ⟨_, again, ?_⟩
  rw [← done]
  simp only [Operand.withNumber, shownNumber, ByteOrder.encode_emod]

end Byte

end Assembly

/-! ## Texts -/

namespace Machine

variable {machine : Machine arch} (sound : arch.ByteSound)
include sound

/-- The number in the bytes of an operand is the one that is shown. -/
theorem decimal_peekNumber {operand : Operand} {value : Int} {cursor : Nat}
    (there : machine.Holds cursor
      (arch.byteOrder.encode (arch.operandBytes operand.mode.kind) value)) :
    Text.decimal (machine.peekNumber arch.byteOrder (arch.operandBytes operand.mode.kind) cursor
        % shownBound) =
      Text.signedDecimal (shownNumber arch operand value) := by
  have number := there.peekNumber_eq
  have bounds := shownNumber_bounds sound operand value
  rw [shownNumber] at bounds
  have bound : shownBound = 18446744073709551616 := rfl
  rw [Nat.mod_eq_of_lt (by omega), Text.decimal_eq_signedDecimal, number, shownNumber]

/-- The operands are shown with the numbers that they were encoded from. -/
theorem byteArguments_operands {opcode : UInt8} {parameters : List Parameter}
    (operandsOnly : parameters.all Parameter.isOperand = true) {operands : List Operand}
    {values : List Int} (length : operands.length = parameters.length)
    (valued : operands.length = values.length)
    (shape : ∀ operand ∈ operands, operand.value.isSome = true ∧ operand.register = none ∧
      arch.addressingMode? opcode = some operand.mode)
    {cursor : Nat} (there : machine.Holds cursor (operandBytes arch operands values)) :
    machine.byteArguments opcode cursor parameters =
      (toldOperands arch operands values).map Operand.text := by
  induction parameters generalizing operands values cursor with
  | nil =>
      obtain rfl := List.eq_nil_of_length_eq_zero length
      rfl
  | cons parameter parameters induction =>
      simp only [List.all_cons, Bool.and_eq_true] at operandsOnly
      obtain ⟨operand, operands, rfl⟩ := List.exists_cons_of_length_eq_add_one length
      obtain ⟨value, values, rfl⟩ := List.exists_cons_of_length_eq_add_one valued.symm
      simp only [List.length_cons, Nat.succ.injEq] at length valued
      obtain ⟨isSome, noRegister, moded⟩ := shape operand (by simp)
      obtain ⟨here, further⟩ := holds_append.mp there
      have others := induction operandsOnly.2 length valued
        (fun other member => shape other (by simp [member])) further
      obtain ⟨token, named⟩ := Option.isSome_iff_exists.mp isSome
      cases parameter with
      | operand name =>
          rw [ByteOrder.length_encode] at others
          have kind : arch.addressingKind opcode = operand.mode.kind := by
            simp only [Datasheet.addressingKind, moded]
          simp only [byteArguments, kind, moded, others, decimal_peekNumber sound here]
          simp [toldOperands, Operand.text, Operand.withNumber, Operand.valueText,
            Operand.registerName, named, noRegister, Token.text]
      | _ => simp [Parameter.isOperand] at operandsOnly

end Machine

/-! ## Instructions -/

/-- A byte machine on which only operands of the one mode stand beside each other. -/
def Architecture.OperandsApart (arch : Architecture) : Prop :=
  ∀ instruction ∈ arch.instructions, instruction.furtherParameters.length ≤ 1 ∨
    ∃ mode, arch.addressingModes = [mode]

namespace Instruction

variable {instruction : Instruction}

/-- The parameters are a register, if one is selected, and the further ones. -/
theorem parameters_eq (shape : instruction.hasByteShape = true) :
    instruction.parameters =
      (if instruction.selectsRegister then [Parameter.register] else [])
        ++ instruction.furtherParameters := by
  unfold hasByteShape at shape
  unfold selectsRegister
  unfold furtherParameters at shape ⊢
  split at shape
  · rename_i parameters front
    simp [front]
  · rw [Assembly.contains_register_of_operands shape]
    rfl

end Instruction

namespace Assembly

section Told

variable {instruction : Instruction} {register : Option RegisterSpec} {operands : List Operand}
  {values : List Int}

theorem length_toldOperands (valued : operands.length = values.length) :
    (toldOperands arch operands values).length = operands.length := by
  simp [toldOperands, valued]

/-- What is shown for operands are operands with other values. -/
theorem mem_toldOperands {told : Operand} (member : told ∈ toldOperands arch operands values) :
    ∃ operand ∈ operands, ∃ number, told = operand.withNumber number := by
  obtain ⟨⟨operand, value⟩, among, rfl⟩ := List.mem_map.mp member
  exact ⟨operand, (List.of_mem_zip among).1, _, rfl⟩

theorem fits_operands {sheet : Datasheet} {parameters : List Parameter}
    (operandsOnly : parameters.all Parameter.isOperand = true) {told : List Operand}
    (length : told.length = parameters.length) (fits : ∀ operand ∈ told, operand.Fits sheet) :
    List.Forall₂ (Argument.Fits sheet) parameters (told.map .operand) := by
  induction parameters generalizing told with
  | nil =>
      obtain rfl := List.eq_nil_of_length_eq_zero length
      exact .nil
  | cons parameter parameters induction =>
      simp only [List.all_cons, Bool.and_eq_true] at operandsOnly
      obtain ⟨operand, told, rfl⟩ := List.exists_cons_of_length_eq_add_one length
      cases parameter with
      | operand name =>
          refine .cons (fits operand (by simp)) (induction operandsOnly.2 (by simpa using length) ?_)
          exact fun other member => fits other (by simp [member])
      | _ => simp [Parameter.isOperand] at operandsOnly

/-- The arguments of a byte machine fit, whatever the values of the operands. -/
theorem ByteFit.fits (sound : arch.ByteSound)
    (fit : ByteFit arch instruction register operands) :
    List.Forall₂ (Argument.Fits arch.toDatasheet) instruction.parameters
      (byteArguments register operands) := by
  have shape := sound.shapes instruction fit.known
  have further := fits_operands shape fit.length fit.operands
  rw [Instruction.parameters_eq shape, byteArguments, ← fit.isSome]
  cases register with
  | none => exact further
  | some named => exact .cons (fit.register named rfl) further

theorem ByteFit.told (fit : ByteFit arch instruction register operands)
    (valued : operands.length = values.length) :
    ByteFit arch instruction register (toldOperands arch operands values) where
  known := fit.known
  isSome := fit.isSome
  length := by rw [length_toldOperands valued, fit.length]
  register := fit.register
  operands := by
    intro told member
    obtain ⟨operand, among, number, rfl⟩ := mem_toldOperands member
    exact Operand.fits_withNumber (fit.operands operand among) number

theorem isNumbered_told (register : Option RegisterSpec) (operands : List Operand)
    (values : List Int) :
    ∀ argument ∈ byteArguments register (toldOperands arch operands values),
      argument.IsNumbered := by
  intro argument member
  rcases List.mem_append.mp member with named | addressed
  · obtain ⟨_, _, rfl⟩ := List.mem_map.mp named
    trivial
  · obtain ⟨told, among, rfl⟩ := List.mem_map.mp addressed
    obtain ⟨operand, _, number, rfl⟩ := mem_toldOperands among
    exact operand.isNumbered_withNumber number

theorem letters?_of_mem {argument : Argument}
    (member : argument ∈ byteArguments register operands) : argument.letters? = none := by
  rcases List.mem_append.mp member with named | addressed
  · obtain ⟨_, _, rfl⟩ := List.mem_map.mp named
    rfl
  · obtain ⟨_, _, rfl⟩ := List.mem_map.mp addressed
    rfl

/-- The operands that are shown add what the written ones added. -/
theorem addsTheSame_toldOperands (sound : arch.ByteSound) (operated : arch.ByteOperands)
    (named : ∀ operand ∈ operands, ∃ token, operand.value = some token)
    {labels later : LabelTable} (wellFormed : later.WellFormed) {cursor : Nat} (place : Nat)
    (given : List.Forall₂ (fun operand value =>
      ByteParts.operandValue ⟨.emit, labels, cursor⟩ arch operand = .ok value) operands values) :
    List.Forall₂
      (AddsTheSame (ByteParts.addArgument ⟨.emit, labels, cursor⟩ arch)
        (ByteParts.addArgument ⟨.emit, later, place⟩ arch))
      (operands.map .operand) ((toldOperands arch operands values).map .operand) := by
  induction given with
  | nil => exact .nil
  | @cons operand value _ _ here _ induction =>
      obtain ⟨token, same⟩ := named operand (by simp)
      exact .cons (addsTheSame_withNumber sound operated wellFormed place same here)
        (induction fun other member => named other (by simp [member]))

/-- Encoding what is shown adds the same, argument by argument. -/
theorem addsTheSame_told (sound : arch.ByteSound) (operated : arch.ByteOperands)
    (fit : ByteFit arch instruction register operands) {labels later : LabelTable}
    (wellFormed : later.WellFormed) {cursor : Nat} (place : Nat)
    (given : List.Forall₂ (fun operand value =>
      ByteParts.operandValue ⟨.emit, labels, cursor⟩ arch operand = .ok value) operands values) :
    List.Forall₂
      (AddsTheSame (ByteParts.addArgument ⟨.emit, labels, cursor⟩ arch)
        (ByteParts.addArgument ⟨.emit, later, place⟩ arch))
      (byteArguments register operands)
      (byteArguments register (toldOperands arch operands values)) := by
  have named : ∀ operand ∈ operands, ∃ token, operand.value = some token := by
    intro operand member
    obtain ⟨token, same, _⟩ := fit.value sound member
    exact ⟨token, same⟩
  have further := addsTheSame_toldOperands sound operated named wellFormed place given
  cases register with
  | none => exact further
  | some named => exact .cons (fun parts result added => added) further

/-- No argument of a byte machine needs a comma behind it. -/
theorem pairwise_endsItself (modes : arch.LegibleModes) (apart : arch.OperandsApart)
    (fit : ByteFit arch instruction register operands) :
    (byteArguments register operands).Pairwise fun argument _ =>
      argument.EndsItself arch.toDatasheet := by
  have further : (operands.map Argument.operand).Pairwise fun argument _ =>
      argument.EndsItself arch.toDatasheet := by
    rcases apart instruction fit.known with few | ⟨mode, single⟩
    · rw [← fit.length] at few
      cases operands with
      | nil => exact .nil
      | cons operand operands =>
          have alone : operands = [] := by simpa using few
          simp [alone]
    · rw [List.pairwise_map]
      apply List.pairwise_of_forall_mem_list
      intro operand member _ _
      have known := (fit.operands operand member).1
      have alone := rivals_eq_nil modes single
      rw [single, List.mem_singleton] at known
      rwa [← known] at alone
  cases register with
  | none => exact further
  | some named => exact List.pairwise_cons.mpr ⟨fun _ _ => trivial, further⟩

end Told

end Assembly

namespace Machine

variable {machine : Machine arch} {instruction : Instruction} {register : Option RegisterSpec}
  {operands : List Operand}

/-- The arguments are shown as they were encoded. -/
theorem byteArguments_written (sound : arch.ByteSound) (apart : arch.OperandsApart)
    (fit : ByteFit arch instruction register operands) {values : List Int}
    (valued : operands.length = values.length) {cursor : Nat}
    (there : machine.Holds cursor (operandBytes arch operands values)) :
    machine.byteArguments (instruction.opcodeWith register (operands.head?.map (·.mode))) cursor
        instruction.parameters =
      (Assembly.byteArguments register (toldOperands arch operands values)).map (·.text) := by
  have shape := sound.shapes instruction fit.known
  obtain ⟨_, selected, moded⟩ := fit.decodes sound
  -- an opcode has room for one mode only, so further operands have to share it
  have sameMode : ∀ operand ∈ operands,
      arch.addressingMode? (instruction.opcodeWith register (operands.head?.map (·.mode))) =
        some operand.mode := by
    intro operand member
    cases operands with
    | nil => simp at member
    | cons first others =>
        have alike : operand.mode = first.mode := by
          rcases apart instruction fit.known with few | ⟨mode, single⟩
          · rw [← fit.length] at few
            have alone : others = [] := by simpa using few
            rw [alone, List.mem_singleton] at member
            rw [member]
          · have known := (fit.operands operand member).1
            have first_known := (fit.operands first (by simp)).1
            rw [single, List.mem_singleton] at known first_known
            rw [known, first_known]
        rw [alike]
        exact moded first rfl
  have further := byteArguments_operands sound shape fit.length valued (fun operand member => by
    obtain ⟨token, same, _⟩ := fit.value sound member
    exact ⟨by rw [same]; rfl, fit.register_eq_none sound member, sameMode operand member⟩) there
  rw [Instruction.parameters_eq shape, ← fit.isSome]
  cases register with
  | none => simpa [Assembly.byteArguments, Argument.text, Function.comp_def] using further
  | some named =>
      have name := selected named rfl
      simpa [Assembly.byteArguments, Argument.text, Function.comp_def, byteArguments,
        name] using further

end Machine

theorem separator_of_byte (byteMachine : arch.model ≠ .word) :
    separator arch.toDatasheet = " " := by
  simp [separator, Datasheet.hasCommas, byteMachine]

namespace Machine

variable {machine : Machine arch} {address : Nat} {instruction : Instruction}

/-- The text of an instruction of a byte machine whose first byte is known. -/
theorem instructionText_of_byte (byteMachine : arch.model ≠ .word) {opcode : UInt8}
    (first : machine.peek address = opcode)
    (decoded : arch.instruction? opcode = some instruction) :
    machine.instructionText address =
      ⟨joinArguments instruction.title (separator arch.toDatasheet)
          (machine.byteArguments opcode (address + 1) instruction.parameters),
        arch.instructionBytes instruction [arch.addressingKind opcode]⟩ := by
  simp only [instructionText, first, decoded, separator_of_byte byteMachine]
  split
  · contradiction
  all_goals rfl

/-- The text of an instruction is told by what its bytes were made of. -/
theorem instructionText_written (sound : arch.ByteSound) (apart : arch.OperandsApart)
    {register : Option RegisterSpec} {operands : List Operand}
    (fit : ByteFit arch instruction register operands) {values : List Int}
    (valued : operands.length = values.length)
    (there : machine.Holds address
      (instruction.opcodeWith register (operands.head?.map (·.mode)) ::
        operandBytes arch operands values)) :
    machine.instructionText address =
      ⟨joinArguments instruction.title (separator arch.toDatasheet)
          ((Assembly.byteArguments register (toldOperands arch operands values)).map (·.text)),
        arch.instructionBytes instruction (operands.map (·.mode.kind))⟩ := by
  obtain ⟨first, further⟩ := holds_cons.mp there
  rw [instructionText_of_byte sound.model first (fit.decodes sound).1,
    byteArguments_written sound apart fit valued further, fit.instructionBytes_opcode sound]

end Machine

/-- Where a written instruction of a byte machine lies, it is shown so that it is encoded again. -/
theorem byteInstruction_shown (sound : arch.ByteSound) (operated : arch.ByteOperands)
    (apart : arch.OperandsApart) (legible : arch.Legible) {statement : String}
    {instruction : Instruction} {arguments : List Argument}
    (written : writtenInstruction? arch statement = some (instruction, arguments))
    {labels : LabelTable} {cursor : Nat} {bytes : List UInt8}
    (encoded : encode ⟨.emit, labels, cursor⟩ arch instruction arguments = .ok bytes)
    {machine : Machine arch} {address : Nat} (there : machine.Holds address bytes)
    {later : LabelTable} (wellFormed : later.WellFormed) (place : Nat) :
    (machine.instructionText address).size = bytes.length ∧
      statementEffect ⟨.emit, later, place⟩ arch (machine.instructionText address).text =
        .ok (.data bytes) := by
  obtain ⟨register, operands, rfl, fit⟩ := byteFit_of_written sound written
  rw [encode_of_byte sound.model] at encoded
  obtain ⟨values, given, rfl⟩ := fit.encodeBytes_eq sound encoded
  have valued := given.length_eq
  have text := Machine.instructionText_written sound apart fit valued there
  have told := fit.told valued
  have again := writtenInstruction?_joinArguments legible rfl fit.known (told.fits sound)
    (isNumbered_told register operands values)
    (.inr fun argument member => by
      obtain ⟨parameter, argumentFits⟩ := exists_parameter (told.fits sound) argument member
      exact isVisible_of_fits legible argumentFits (letters?_of_mem member))
    (.inr (pairwise_endsItself legible.modes apart told))
  rw [text]
  constructor
  · rw [fit.instructionBytes_eq sound, List.length_cons, length_operandBytes valued, Nat.add_comm]
  · rw [statementEffect_of_written again, encode_of_byte sound.model,
      encodeBytes_of_addsTheSame (addsTheSame_told sound operated fit wellFormed place given)
        encoded]
    rfl

end ClassroomCpu
