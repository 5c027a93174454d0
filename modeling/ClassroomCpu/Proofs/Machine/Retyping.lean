import ClassroomCpu.Proofs.Assembly.ForwardWords
import ClassroomCpu.Proofs.Assembly.SingleLine
import ClassroomCpu.Proofs.Catalog.StatementLength

/-!
# Typing back in what is shown

Whatever bytes lie at an address, the text of the instruction there is made of
arguments that fit the parameters of the instruction, with numbers that pass
every check.  These arguments are encoded, not always into the same bytes, as
some bits of an opcode may stand for nothing; but the new bytes are shown by the
same text.
-/

namespace ClassroomCpu

open Assembly Outcome

variable {arch : Architecture} {machine : Machine arch} {address : Nat} {labels : LabelTable}
  {cursor : Nat}

namespace Machine

/-- The text at an address is a line that is encoded into bytes which are shown by it again. -/
structure ReadsBack (machine : Machine arch) (address : Nat) (labels : LabelTable) (cursor : Nat)
    (bytes : List UInt8) : Prop where
  line : IsPlainLine (machine.instructionText address).text.toList
  reserved : ∃ first, statementEffect ⟨.reserve, labels, cursor⟩ arch
    (machine.instructionText address).text = .ok (.data first) ∧ first.length = bytes.length
  emitted : statementEffect ⟨.emit, labels, cursor⟩ arch (machine.instructionText address).text =
    .ok (.data bytes)
  length : bytes.length = (machine.instructionText address).size
  again : ∀ (other : Machine arch) place, other.Holds place bytes →
    other.instructionText place = machine.instructionText address

/-- What can be emitted can be reserved when all labels are known. -/
theorem succeeds_reserve (wellFormed : labels.WellFormed) {instruction : Instruction}
    {arguments : List Argument} (length : instruction.parameters.length = arguments.length)
    (emitted : Succeeds (encode ⟨.emit, labels, cursor⟩ arch instruction arguments)) :
    Succeeds (encode ⟨.reserve, labels, cursor⟩ arch instruction arguments) := by
  apply (encode_before_iff wellFormed (.refl labels) length emitted).mpr
  -- A word that is read too early is a label in the second pass alone.
  rintro place - ⟨-, unknown, known⟩
  simp [unknown] at known

/-- A text that is made of arguments is a line, and is encoded as the arguments are. -/
theorem readsBack_of_encoded (legible : arch.Legible) {instruction : Instruction}
    {arguments : List Argument} (known : instruction ∈ arch.instructions)
    (fits : List.Forall₂ (Argument.Fits arch.toDatasheet) instruction.parameters arguments)
    (numbered : ∀ argument ∈ arguments, argument.IsNumbered)
    (seen : arguments.length ≤ 1 ∨ ∀ argument ∈ arguments, argument.letters? = none)
    (ends : arch.hasCommas = true ∨
      arguments.Pairwise fun argument _ => argument.EndsItself arch.toDatasheet)
    (text : (machine.instructionText address).text =
      joinArguments instruction.title (separator arch.toDatasheet) (arguments.map (·.text)))
    (wellFormed : labels.WellFormed) {bytes : List UInt8}
    (encoded : encode ⟨.emit, labels, cursor⟩ arch instruction arguments = .ok bytes)
    (again : ∀ (other : Machine arch) place, other.Holds place bytes →
      other.instructionText place = machine.instructionText address)
    (length : bytes.length = (machine.instructionText address).size) :
    machine.ReadsBack address labels cursor bytes := by
  have visible : arguments.length ≤ 1 ∨ ∀ argument ∈ arguments, argument.IsVisible := by
    refine seen.imp_right fun noLetters argument member => ?_
    obtain ⟨parameter, fit⟩ := exists_parameter fits argument member
    exact isVisible_of_fits legible fit (noLetters argument member)
  have written := writtenInstruction?_joinArguments legible rfl known fits numbered visible ends
  obtain ⟨first, reserved⟩ := succeeds_reserve wellFormed fits.length_eq ⟨bytes, encoded⟩
  rw [← text] at written
  constructor
  case line =>
    rw [text]
    exact isPlainLine_instruction legible known fits numbered
  case reserved =>
    refine ⟨first, ?_, (length_encode reserved).trans (length_encode encoded).symm⟩
    rw [statementEffect_of_written written, reserved]
    rfl
  case emitted =>
    rw [statementEffect_of_written written, encoded]
    rfl
  case length => exact length
  case again => exact again

end Machine

/-! ## Byte machines -/

namespace Assembly

/-- An operand with a number for its value. -/
def Operand.ofNumber (mode : AddressingMode) (number : Nat) : Operand :=
  ⟨⟨some (.word (Text.signedDecimal number)), none⟩, mode⟩

/-- An operand in the mode of an opcode, with a number that it can be written with. -/
def Operand.IsAddressed (arch : Architecture) (opcode : UInt8) (operand : Operand) : Prop :=
  ∃ mode number, arch.addressingMode? opcode = some mode ∧ Addresses arch mode.kind number ∧
    operand = .ofNumber mode number

theorem Operand.IsAddressed.fits (sound : arch.ByteSound) (modes : arch.LegibleModes)
    {opcode : UInt8} {operand : Operand} (addressed : operand.IsAddressed arch opcode) :
    operand.Fits arch.toDatasheet := by
  obtain ⟨mode, number, moded, _, rfl⟩ := addressed
  have known := List.mem_of_find?_eq_some moded
  have lexed := formItems_of_reads (modes.forms mode known)
  obtain ⟨hasValue, hasRegister⟩ := sound.forms mode known _ lexed
  refine ⟨known, _, lexed, hasValue.symm, hasRegister.symm, ?_, by simp [ofNumber]⟩
  rintro token ⟨⟩
  trivial

theorem toldOperands_of_addressed (sound : arch.ByteSound) (operated : arch.ByteOperands)
    {labels : LabelTable} (wellFormed : labels.WellFormed) {cursor : Nat} {opcode : UInt8}
    {operands : List Operand} (addressed : ∀ operand ∈ operands, operand.IsAddressed arch opcode)
    {values : List Int}
    (given : List.Forall₂ (fun operand value =>
      ByteParts.operandValue ⟨.emit, labels, cursor⟩ arch operand = .ok value) operands values) :
    toldOperands arch operands values = operands := by
  induction given with
  | nil => rfl
  | @cons operand value operands values here _ induction =>
      obtain ⟨mode, number, moded, addresses, rfl⟩ := addressed operand (by simp)
      rw [operandValue_of_addresses sound operated rfl addresses wellFormed] at here
      obtain rfl := Except.ok.inj here
      have power : ((256 ^ arch.operandBytes mode.kind : Nat) : Int) =
          256 ^ arch.operandBytes mode.kind := Int.natCast_pow 256 _
      have shown : shownNumber arch (.ofNumber mode number) number = number :=
        Int.emod_eq_of_lt (Int.natCast_nonneg number) (power ▸ Int.ofNat_lt.mpr addresses.1)
      have others := induction fun other member => addressed other (by simp [member])
      simp only [toldOperands, List.zip_cons_cons, List.map_cons, shown] at others ⊢
      rw [others, Operand.withNumber_of_some rfl]

end Assembly

namespace Machine

/-- The numbers of some operands that lie one behind the other. -/
def operandNumbers (machine : Machine arch) (width cursor : Nat) : Nat → List Nat
  | 0 => []
  | count + 1 =>
      machine.peekNumber arch.byteOrder width cursor
        :: operandNumbers machine width (cursor + width) count

theorem peekNumber_lt (machine : Machine arch) (order : ByteOrder) (width cursor : Nat) :
    machine.peekNumber order width cursor < 256 ^ width := by
  have small := order.decode_lt (machine.peekBytes cursor width)
  rwa [length_peekBytes] at small

theorem lt_of_mem_operandNumbers {width count number : Nat}
    (member : number ∈ machine.operandNumbers width cursor count) : number < 256 ^ width := by
  induction count generalizing cursor with
  | zero => simp [operandNumbers] at member
  | succ count induction =>
      rcases List.mem_cons.mp member with rfl | further
      · exact machine.peekNumber_lt arch.byteOrder width cursor
      · exact induction further

/-- The operands that are shown can be written if their numbers are addresses. -/
theorem exists_addressed (sound : arch.ByteSound) {opcode : UInt8} {mode : AddressingMode}
    (moded : arch.addressingMode? opcode = some mode) {parameters : List Parameter}
    (operandsOnly : parameters.all Parameter.isOperand = true)
    (inside : mode.kind ≠ .immediate →
      ∀ number ∈ machine.operandNumbers (arch.operandBytes mode.kind) cursor parameters.length,
        number < arch.memorySize) :
    ∃ operands : List Operand, operands.length = parameters.length ∧
      (∀ operand ∈ operands, operand.IsAddressed arch opcode) ∧
        machine.byteArguments opcode cursor parameters = operands.map Operand.text := by
  induction parameters generalizing cursor with
  | nil => exact ⟨[], rfl, by simp, rfl⟩
  | cons parameter parameters induction =>
      simp only [List.all_cons, Bool.and_eq_true] at operandsOnly
      have kind : arch.addressingKind opcode = mode.kind := by
        simp only [Datasheet.addressingKind, moded]
      have further : mode.kind ≠ .immediate →
          ∀ number ∈ machine.operandNumbers (arch.operandBytes mode.kind)
            (cursor + arch.operandBytes mode.kind) parameters.length, number < arch.memorySize :=
        fun other number member => inside other number (by simp [operandNumbers, member])
      obtain ⟨operands, length, addressed, texts⟩ := induction operandsOnly.2 further
      have small := machine.peekNumber_lt arch.byteOrder (arch.operandBytes mode.kind) cursor
      let operand := Operand.ofNumber mode
        (machine.peekNumber arch.byteOrder (arch.operandBytes mode.kind) cursor)
      refine ⟨operand :: operands, by simp [length], ?_, ?_⟩
      · apply List.forall_mem_cons.mpr ⟨⟨mode, _, moded, ⟨small, ?_⟩, rfl⟩, addressed⟩
        exact fun other => inside other _ (by simp [operandNumbers])
      · have bound : shownBound = 18446744073709551616 := rfl
        have most : 256 ^ arch.operandBytes mode.kind ≤ 256 ^ 2 :=
          Nat.pow_le_pow_right (by decide) (operandBytes_le_two sound mode.kind)
        cases parameter with
        | operand name =>
            -- What is shown is cut to 64 bits, which an operand of two bytes does not reach.
            simp only [byteArguments, kind, moded, texts, List.map_cons]
            rw [Nat.mod_eq_of_lt (by omega), Text.decimal_eq_signedDecimal]
            rfl
        | _ => simp [Parameter.isOperand] at operandsOnly

theorem exists_selected {instruction : Instruction} {opcode : UInt8}
    (selects : instruction.selectsRegister = true → arch.selectedName opcode ≠ "") :
    ∃ register : Option RegisterSpec, register.isSome = instruction.selectsRegister ∧
      ∀ named ∈ register, Selectable arch.toDatasheet named ∧
        named.name = arch.selectedName opcode := by
  cases names : instruction.selectsRegister with
  | false => exact ⟨none, rfl, by simp⟩
  | true =>
      have something := selects names
      unfold Datasheet.selectedName at something ⊢
      split at something
      · rename_i named found
        refine ⟨some named, rfl, ?_⟩
        rintro _ ⟨⟩
        refine ⟨⟨List.mem_of_find?_eq_some found, ?_⟩, rfl⟩
        by_contra nothing
        have selected := List.find?_some found
        rw [Catalog.isMatch_of_isEmpty (by simpa using nothing)] at selected
        contradiction
      · exact absurd rfl something

section Byte

variable (sound : arch.ByteSound) (operated : arch.ByteOperands) (apart : arch.OperandsApart)
  (legible : arch.Legible) {instruction : Instruction}

include sound legible in
/-- The text of an instruction of a byte machine is made of arguments that can be written. -/
theorem exists_byteFit (decoded : arch.instruction? (machine.peek address) = some instruction)
    {mode : AddressingMode} (moded : arch.addressingMode? (machine.peek address) = some mode)
    (inside : mode.kind ≠ .immediate →
      ∀ number ∈ machine.operandNumbers (arch.operandBytes mode.kind) (address + 1)
        instruction.furtherParameters.length, number < arch.memorySize)
    (selects : instruction.selectsRegister = true →
      arch.selectedName (machine.peek address) ≠ "") :
    ∃ register operands, ByteFit arch instruction register operands ∧
      (∀ operand ∈ operands, operand.IsAddressed arch (machine.peek address)) ∧
        machine.instructionText address =
          ⟨joinArguments instruction.title (separator arch.toDatasheet)
              ((Assembly.byteArguments register operands).map (·.text)),
            arch.instructionBytes instruction (operands.map (·.mode.kind))⟩ := by
  have known := List.mem_of_find?_eq_some decoded
  have shape := sound.shapes instruction known
  obtain ⟨register, isSome, selected⟩ := exists_selected selects
  obtain ⟨operands, length, addressed, texts⟩ := exists_addressed sound moded shape inside
  have fit : ByteFit arch instruction register operands :=
    ⟨known, isSome, length, fun named member => (selected named member).1,
      fun operand member => (addressed operand member).fits sound legible.modes⟩
  have shown : machine.byteArguments (machine.peek address) (address + 1)
      instruction.parameters = (Assembly.byteArguments register operands).map (·.text) := by
    rw [Instruction.parameters_eq shape, ← isSome]
    cases register with
    | none => simpa [Assembly.byteArguments, Argument.text, Function.comp_def] using texts
    | some named =>
        have name := (selected named rfl).2
        simpa [Assembly.byteArguments, Argument.text, Function.comp_def, byteArguments,
          name] using texts
  have kind : ∀ operand ∈ operands.head?,
      arch.addressingKind (machine.peek address) = operand.mode.kind := by
    intro operand first
    obtain ⟨mode, number, moded, _, rfl⟩ := addressed operand (List.mem_of_mem_head? first)
    simp only [Datasheet.addressingKind, moded, Operand.ofNumber]
  refine ⟨register, operands, fit, addressed, ?_⟩
  rw [instructionText_of_byte sound.model rfl decoded, shown, fit.instructionBytes_kind sound kind]

include sound operated in
theorem succeeds_encode_of_addressed {register : Option RegisterSpec} {operands : List Operand}
    (fit : ByteFit arch instruction register operands) {opcode : UInt8}
    (addressed : ∀ operand ∈ operands, operand.IsAddressed arch opcode)
    (wellFormed : labels.WellFormed) (cursor : Nat) :
    Succeeds (encode ⟨.emit, labels, cursor⟩ arch instruction
      (Assembly.byteArguments register operands)) := by
  rw [succeeds_encode (fit.fits sound).length_eq]
  intro argument member
  rcases List.mem_append.mp member with named | among
  · obtain ⟨_, _, rfl⟩ := List.mem_map.mp named
    trivial
  · obtain ⟨operand, inOperands, rfl⟩ := List.mem_map.mp among
    obtain ⟨mode, number, _, addresses, rfl⟩ := addressed operand inOperands
    intro _
    rw [valueOf_of_byte sound.model]
    exact ⟨number, operandValue_of_addresses sound operated rfl addresses wellFormed cursor⟩

include sound operated apart legible in
/-- What is shown of any bytes of a byte machine can be typed back in. -/
theorem exists_readsBack_of_byte
    (decoded : arch.instruction? (machine.peek address) = some instruction)
    {mode : AddressingMode} (moded : arch.addressingMode? (machine.peek address) = some mode)
    (inside : mode.kind ≠ .immediate →
      ∀ number ∈ machine.operandNumbers (arch.operandBytes mode.kind) (address + 1)
        instruction.furtherParameters.length, number < arch.memorySize)
    (selects : instruction.selectsRegister = true →
      arch.selectedName (machine.peek address) ≠ "")
    (wellFormed : labels.WellFormed) (cursor : Nat) :
    ∃ bytes, machine.ReadsBack address labels cursor bytes := by
  obtain ⟨register, operands, fit, addressed, text⟩ :=
    exists_byteFit sound legible decoded moded inside selects
  obtain ⟨bytes, encoded⟩ :=
    succeeds_encode_of_addressed sound operated fit addressed wellFormed cursor
  have encodedBytes := encoded
  rw [encode_of_byte sound.model] at encodedBytes
  obtain ⟨values, given, rfl⟩ := fit.encodeBytes_eq sound encodedBytes
  -- The new bytes tell the same operands; only the opcode can differ from the old one.
  have told := toldOperands_of_addressed sound operated wellFormed addressed given
  refine ⟨_, readsBack_of_encoded legible fit.known (fit.fits sound) ?_
    (.inr fun _ => letters?_of_mem) (.inr (pairwise_endsItself legible.modes apart fit))
    (congrArg InstructionText.text text) wellFormed encoded ?_ ?_⟩
  · rw [← told]
    exact isNumbered_told register operands values
  · intro other place there
    rw [instructionText_written sound apart fit given.length_eq there, told, text]
  · rw [text, fit.instructionBytes_eq sound, List.length_cons,
      length_operandBytes given.length_eq, Nat.add_comm]

end Byte

end Machine

/-! ## Word machines -/

namespace Assembly

/-- The operand that some bits tell, with the number in its word if it has one. -/
def Operand.ofBits (arch : Architecture) (mode : AddressingMode) (bits : UInt8) (number : Nat) :
    Operand where
  value :=
    if arch.operandBytes mode.kind = 2 then
      some (.word (Text.signedDecimal (wordNumber mode.kind number)))
    else none
  register := if mode.followsOpcode then none else arch.registers[bits.toNat % 8]?
  mode := mode

@[simp] theorem Operand.mode_ofBits (mode : AddressingMode) (bits : UInt8) (number : Nat) :
    (Operand.ofBits arch mode bits number).mode = mode := rfl

end Assembly

/-- A word machine on which all bits of an operand tell one that can be written. -/
structure Architecture.ShowsOperands (arch : Architecture) : Prop where
  moded : ∀ bits, (arch.wordAddressingMode? bits).isSome = true
  selectable : ∀ named ∈ arch.registers, Selectable arch.toDatasheet named
  /-- Moving the program counter on is shown as another mode. -/
  apart : ∀ bits mode, arch.wordAddressingMode? bits = some mode →
    mode.kind.increments = true → (Operand.ofBits arch mode bits 0).namesCounter arch = false

namespace Assembly

section Word

variable (sound : arch.WordSound) (regular : arch.WordRegular) (shows : arch.ShowsOperands)

include regular shows in
theorem exists_wordRegister (bits : UInt8) :
    ∃ named, arch.registers[bits.toNat % 8]? = some named ∧
      Selectable arch.toDatasheet named ∧ Machine.wordRegisterName arch bits = named.name := by
  have inside : bits.toNat % 8 < arch.registers.length := by
    rw [regular.registers]
    exact Nat.mod_lt _ (by decide)
  have found := List.getElem?_eq_getElem inside
  refine ⟨_, found, shows.selectable _ (List.getElem_mem inside), ?_⟩
  simp only [Machine.wordRegisterName, found]

variable {mode : AddressingMode}

include sound regular shows in
theorem fits_ofBits (modes : arch.LegibleModes) (known : mode ∈ arch.addressingModes)
    (bits : UInt8) (number : Nat) :
    (Operand.ofBits arch mode bits number).Fits arch.toDatasheet := by
  have lexed := formItems_of_reads (modes.forms mode known)
  obtain ⟨hasValue, hasRegister⟩ := sound.forms mode known _ lexed
  obtain ⟨named, found, selectable, _⟩ := exists_wordRegister regular shows bits
  refine ⟨known, _, lexed, ?_, ?_, ?_, ?_⟩
  · rw [hasValue]
    by_cases wide : arch.operandBytes mode.kind = 2 <;> simp [Operand.ofBits, wide]
  · rw [hasRegister]
    cases follows : mode.followsOpcode <;> simp [Operand.ofBits, follows, found]
  · intro token given
    simp only [Operand.ofBits, Option.ite_none_right_eq_some] at given
    obtain ⟨_, ⟨⟩⟩ := given
    trivial
  · intro other given
    simp only [Operand.ofBits, Option.ite_none_left_eq_some, found] at given
    obtain ⟨_, ⟨⟩⟩ := given
    exact selectable

theorem isShown_ofBits (arch : Architecture) (mode : AddressingMode) (bits : UInt8) {number : Nat}
    (small : number < 65536) : (Operand.ofBits arch mode bits number).IsShown := by
  intro token given
  simp only [Operand.ofBits, Option.mem_def, Option.ite_none_right_eq_some] at given
  obtain ⟨_, ⟨⟩⟩ := given
  exact ⟨number, small, rfl⟩

include sound regular shows in
/-- An operand is shown as the operand that its bits and its word tell. -/
theorem text_ofBits (modes : arch.LegibleModes) (known : mode ∈ arch.addressingModes)
    (machine : Machine arch) (bits : UInt8) (cursor : Nat) :
    machine.wordOperand mode bits cursor =
      (Operand.ofBits arch mode bits
        (if arch.operandBytes mode.kind = 2 then machine.peekNumber .big 2 cursor else 0)).text := by
  generalize held : (if arch.operandBytes mode.kind = 2 then machine.peekNumber .big 2 cursor
    else 0) = number
  obtain ⟨named, found, _, name⟩ := exists_wordRegister regular shows bits
  obtain ⟨hasValue, hasRegister⟩ :=
    isSome_parts modes (fits_ofBits sound regular shows modes known bits number)
  have shown : machine.wordOperand mode bits cursor =
      mode.render (Text.signedDecimal (wordNumber mode.kind number))
        (Machine.wordRegisterName arch bits) := by
    rw [← Machine.wordNumberText_eq, ← held]
    rfl
  rw [shown]
  apply render_congr (modes.forms mode known)
  · intro isValue
    rw [Operand.mode_ofBits, decide_eq_true isValue] at hasValue
    have wide : arch.operandBytes mode.kind = 2 := by
      by_contra narrow
      simp [Operand.ofBits, narrow] at hasValue
    simp [Operand.valueText, Operand.ofBits, wide, Token.text]
  · intro isRegister
    rw [Operand.mode_ofBits, decide_eq_true isRegister] at hasRegister
    have names : mode.followsOpcode = false := by
      cases follows : mode.followsOpcode with
      | false => rfl
      | true => simp [Operand.ofBits, follows] at hasRegister
    simp [Operand.registerName, Operand.ofBits, names, found, name]

end Word

theorem Argument.IsShown.isNumbered {instruction : Instruction} {argument : Argument}
    (isShown : argument.IsShown instruction) : argument.IsNumbered := by
  cases argument with
  | register named => trivial
  | flags letters =>
      obtain ⟨opcode, rfl⟩ := isShown
      exact (flagBits_flagLetters opcode).2
  | offset text =>
      obtain ⟨byte, rfl⟩ := isShown
      obtain ⟨number, same, _⟩ := offsetText_eq instruction byte
      exact ⟨number, same⟩
  | operand operand =>
      intro token given
      obtain ⟨number, _, same⟩ := isShown token given
      exact ⟨_, same⟩

/-- Letters of condition codes stand alone. -/
theorem WordEncoded.seen {scope : Scope} {instruction : Instruction} {format : WordFormat}
    {arguments : List Argument} {bytes : List UInt8}
    (encoded : WordEncoded scope arch instruction format arguments bytes) :
    arguments.length ≤ 1 ∨ ∀ argument ∈ arguments, argument.letters? = none := by
  cases encoded <;> simp [Argument.letters?]

end Assembly

namespace Machine

/-- What is shown for some parameters is the text of arguments that can be written. -/
structure ShownAs (machine : Machine arch) (instruction : Instruction) (opcode second : UInt8)
    (cursor : Nat) (parameters : List Parameter) (arguments : List Argument) : Prop where
  fits : List.Forall₂ (Argument.Fits arch.toDatasheet) parameters arguments
  isShown : ∀ argument ∈ arguments, argument.IsShown instruction
  apart : ∀ operand ∈ writtenOperands arguments,
    operand.mode.kind.increments = true → operand.namesCounter arch = false
  texts : machine.wordArguments instruction opcode second cursor parameters =
    arguments.map (·.text)
  kinds : wordKinds arch opcode second parameters = arguments.filterMap Argument.kind?

section Word

variable (sound : arch.WordSound) (regular : arch.WordRegular) (shows : arch.ShowsOperands)
  (modes : arch.LegibleModes) {instruction : Instruction} {opcode second : UInt8}
include sound regular shows modes

/-- The operand in the place of a parameter is shown as one that can be written. -/
theorem ShownAs.operand {name : String} (addressed : name.toList.head? = some 'a')
    {parameters : List Parameter}
    (further : ∀ next, ∃ arguments,
      machine.ShownAs instruction opcode second next parameters arguments) (cursor : Nat) :
    ∃ arguments,
      machine.ShownAs instruction opcode second cursor (.operand name :: parameters) arguments := by
  obtain ⟨mode, moded⟩ :=
    Option.isSome_iff_exists.mp (shows.moded (operandBits opcode second name))
  have known : mode ∈ arch.addressingModes := by
    rcases Option.or_eq_some_iff.mp moded with found | ⟨_, found⟩
    · exact List.mem_of_find?_eq_some found
    · exact List.mem_of_find?_eq_some found
  let bits := operandBits opcode second name
  let number :=
    if arch.operandBytes mode.kind = 2 then machine.peekNumber .big 2 cursor else 0
  let operand := Operand.ofBits arch mode bits number
  obtain ⟨arguments, shown⟩ :=
    further (if arch.operandBytes mode.kind = 2 then cursor + 2 else cursor)
  have small : number < 65536 := by
    simp only [number]
    split
    · exact machine.peekNumber_lt .big 2 cursor
    · decide
  have text : machine.wordOperand mode (operandBits opcode second name) cursor = operand.text :=
    text_ofBits sound regular shows modes known machine bits cursor
  refine ⟨.operand operand :: arguments, .cons ?_ shown.fits,
    List.forall_mem_cons.mpr ⟨?_, shown.isShown⟩, ?_, ?_, ?_⟩
  · exact fits_ofBits sound regular shows modes known bits number
  · exact isShown_ofBits arch mode bits small
  · exact List.forall_mem_cons.mpr ⟨shows.apart bits mode moded, shown.apart⟩
  · simp only [wordArguments, moded, shown.texts, text, List.map_cons]
    rfl
  · have kinds := shown.kinds
    simp only [wordKinds] at kinds
    simp only [wordKinds, List.filterMap_cons, addressed, if_true, moded, Option.map_some, kinds]
    rfl

theorem exists_shownAs {parameters : List Parameter}
    (addressed : ∀ name, .operand name ∈ parameters → name.toList.head? = some 'a')
    (cursor : Nat) :
    ∃ arguments, machine.ShownAs instruction opcode second cursor parameters arguments := by
  induction parameters generalizing cursor with
  | nil => exact ⟨[], .nil, by simp, by simp [writtenOperands], rfl, rfl⟩
  | cons parameter parameters induction =>
      have further := induction fun name member => addressed name (by simp [member])
      cases parameter with
      | register =>
          obtain ⟨arguments, shown⟩ := further cursor
          obtain ⟨named, _, selectable, name⟩ := exists_wordRegister regular shows opcode
          refine ⟨.register named :: arguments, .cons selectable shown.fits,
            List.forall_mem_cons.mpr ⟨trivial, shown.isShown⟩, shown.apart, ?_, shown.kinds⟩
          rw [wordArguments, name, shown.texts]
          rfl
      | flags =>
          obtain ⟨arguments, shown⟩ := further cursor
          refine ⟨.flags (flagLetters opcode) :: arguments, .cons trivial shown.fits,
            List.forall_mem_cons.mpr ⟨⟨opcode, rfl⟩, shown.isShown⟩, shown.apart, ?_, shown.kinds⟩
          rw [wordArguments, shown.texts]
          rfl
      | offset =>
          obtain ⟨arguments, shown⟩ := further cursor
          refine ⟨.offset (offsetText instruction second) :: arguments, .cons trivial shown.fits,
            List.forall_mem_cons.mpr ⟨⟨second, rfl⟩, shown.isShown⟩, shown.apart, ?_, shown.kinds⟩
          rw [wordArguments, shown.texts]
          rfl
      | operand name =>
          exact ShownAs.operand sound regular shows modes (addressed name (by simp)) further cursor

omit shows modes in
theorem succeeds_encode_of_isShown {arguments : List Argument}
    (fits : List.Forall₂ (Argument.Fits arch.toDatasheet) instruction.parameters arguments)
    (isShown : ∀ argument ∈ arguments, argument.IsShown instruction)
    (wellFormed : labels.WellFormed) (cursor : Nat) :
    Succeeds (encode ⟨.emit, labels, cursor⟩ arch instruction arguments) := by
  rw [succeeds_encode fits.length_eq]
  intro argument member
  have here := isShown argument member
  cases argument with
  | register named => trivial
  | flags letters =>
      obtain ⟨opcode, rfl⟩ := here
      exact ⟨sound.model, _, (flagBits_flagLetters opcode).1⟩
  | offset text =>
      obtain ⟨byte, rfl⟩ := here
      exact ⟨sound.model, byte, offset_offsetText wellFormed cursor instruction byte⟩
  | operand operand =>
      intro _
      rw [valueOf_of_word sound.model]
      cases named : operand.value with
      | none => exact ⟨0, by simp only [WordParts.operandValue, named]⟩
      | some token =>
          obtain ⟨number, small, rfl⟩ := here token named
          exact ⟨_, wordValue_of_shown regular small named wellFormed cursor⟩

end Word

/-- What is shown of any bytes of a word machine can be typed back in. -/
theorem exists_readsBack_of_word (sound : arch.WordSound) (regular : arch.WordRegular)
    (shows : arch.ShowsOperands) (legible : arch.Legible) {instruction : Instruction}
    (decoded : arch.instruction? (machine.peek address) = some instruction)
    (wellFormed : labels.WellFormed) (cursor : Nat) :
    ∃ bytes, machine.ReadsBack address labels cursor bytes := by
  have known := List.mem_of_find?_eq_some decoded
  obtain ⟨parameters, size⟩ := sound.formed known
  have addressed : ∀ name, .operand name ∈ instruction.parameters →
      name.toList.head? = some 'a' := by
    rw [parameters]
    generalize instruction.operation.format = format
    cases format <;> simp [WordFormat.parameters]
  generalize behind : (if instruction.size = 1 then 0 else machine.peek (address + 1)) = second
  obtain ⟨arguments, shown⟩ : ∃ arguments, machine.ShownAs instruction (machine.peek address)
      second (address + 2) instruction.parameters arguments :=
    exists_shownAs sound regular shows legible.modes addressed (address + 2)
  obtain ⟨bytes, encoded⟩ :=
    succeeds_encode_of_isShown sound regular shown.fits shown.isShown wellFormed cursor
  have inFormat : WordEncoded ⟨.emit, labels, cursor⟩ arch instruction
      instruction.operation.format arguments bytes := by
    rw [encode_of_word sound.model] at encoded
    exact wordEncoded_of_encodeWord sound known shown.fits encoded
  have text : machine.instructionText address =
      ⟨joinArguments instruction.title (separator arch.toDatasheet) (arguments.map (·.text)),
        bytes.length⟩ := by
    rw [instructionText_of_word sound.model rfl decoded behind, shown.texts, shown.kinds,
      inFormat.length_eq sound size]
  refine ⟨bytes, readsBack_of_encoded legible known shown.fits ?_ inFormat.seen
    (.inl (by simp [Datasheet.hasCommas, sound.model])) (congrArg InstructionText.text text)
    wellFormed encoded ?_ (congrArg InstructionText.size text).symm⟩
  · exact fun argument member => (shown.isShown argument member).isNumbered
  · intro other place there
    obtain ⟨told, toldAs, _, again⟩ := exists_told sound regular legible.modes known wellFormed
      cursor shown.apart there inFormat
    rw [again, toldAs.kept wellFormed shown.isShown, text]

end Machine

end ClassroomCpu
