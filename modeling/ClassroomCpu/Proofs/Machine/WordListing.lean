import ClassroomCpu.Proofs.Assembly.ArgumentText
import ClassroomCpu.Proofs.Assembly.Reencoding
import ClassroomCpu.Proofs.Execution.WordReference

/-!
# Instruction texts of word machines

Where the bytes of a written instruction lie, the instruction is shown with the
registers, the condition codes and the numbers that its bytes were made of.
-/

namespace ClassroomCpu

open Assembly

variable {arch : Architecture}

namespace Assembly

/-! ## What is shown of an operand -/

/-- The number that is shown for the word of an operand. -/
def wordNumber : AddressingMode.Kind → Nat → Int
  | .indexed, value | .indexedIndirect, value => Alu.signed 16 value
  | _, value => value

theorem wordNumber_emod (kind : AddressingMode.Kind) (value : Nat) :
    wordNumber kind value % 256 ^ 2 = (value : Int) % 256 ^ 2 := by
  have signed : Alu.signed 16 value % 256 ^ 2 = (value : Int) % 256 ^ 2 :=
    Alu.signed_emod 16 value
  cases kind <;> first | exact signed | rfl

theorem wordNumber_bounds (kind : AddressingMode.Kind) {value : Nat} (small : value < 65536) :
    -32768 ≤ wordNumber kind value ∧ wordNumber kind value ≤ 65535 := by
  have signed : -32768 ≤ Alu.signed 16 value ∧ Alu.signed 16 value < 32768 :=
    Alu.signed_bounds (by decide) value
  cases kind <;> simp only [wordNumber] <;> omega

/-- Only what the form asks for is shown. -/
theorem render_congr {mode : AddressingMode} (reads : FormReads mode.form)
    {value other name another : String}
    (values : .word "a" ∈ formTokens mode.form → value = other)
    (names : .word "r" ∈ formTokens mode.form → name = another) :
    mode.render value name = mode.render other another := by
  rw [← String.toList_inj, toList_render reads, toList_render reads]
  congr 1
  apply List.map_congr_left
  intro token member
  unfold Token.fill
  split
  · rename_i isValue
    rw [values (isValue ▸ member)]
  · split
    · rename_i isRegister
      rw [names (isRegister ▸ member)]
    · rfl

/-- A register that operands can name is shown by its number. -/
theorem wordRegisterName_eq (sound : arch.WordSound) {named : RegisterSpec}
    (selectable : Selectable arch.toDatasheet named) {bits : UInt8}
    (number : bits.toNat % 8 = WordParts.registerNumber named) :
    Machine.wordRegisterName arch bits = named.name := by
  obtain ⟨index, _, same, place⟩ := sound.names named selectable
  have found : arch.registers[bits.toNat % 8]? = some named := by
    rw [number, place, List.getElem?_eq_getElem index.isLt]
    exact congrArg some same
  simp only [Machine.wordRegisterName, found]

section Operand

variable (sound : arch.WordSound) (regular : arch.WordRegular) {operand : Operand}
  (fits : operand.Fits arch.toDatasheet)
include sound fits

/-- An operand is shown with its register, and with the number in its word. -/
theorem text_withNumber (modes : arch.LegibleModes) (number : Int) :
    (operand.withNumber number).text =
      operand.mode.render (Text.signedDecimal number)
        (Machine.wordRegisterName arch (UInt8.ofNat (WordParts.operandBits operand))) := by
  obtain ⟨hasValue, hasRegister⟩ := isSome_parts modes fits
  apply render_congr (modes.forms _ fits.1)
  · intro isValue
    rw [decide_eq_true isValue] at hasValue
    obtain ⟨token, given⟩ := Option.isSome_iff_exists.mp hasValue
    simp [Operand.withNumber, Operand.valueText, given, Token.text]
  · intro isRegister
    rw [decide_eq_true isRegister] at hasRegister
    obtain ⟨named, given⟩ := Option.isSome_iff_exists.mp hasRegister
    have number := WordOperand.registerNumber_eq sound fits
    rw [given] at number
    rw [wordRegisterName_eq sound (selectable_register fits named given) number]
    simp [Operand.withNumber, Operand.registerName, given]

omit sound fits in
/-- A number that fits into a word stands for itself, as an address if it is none below zero. -/
theorem wordValue_withNumber (size : arch.memorySize = 65536) {token : Token}
    (named : operand.value = some token) {later : LabelTable} (wellFormed : later.WellFormed)
    (place : Nat) {number : Int} (bounds : -32768 ≤ number ∧ number ≤ 65535)
    (address : operand.mode.kind = .direct → 0 ≤ number) :
    WordParts.operandValue ⟨.emit, later, place⟩ arch (operand.withNumber number) =
      .ok number := by
  have bound : literalBound = 9223372036854775808 := rfl
  have small : number.natAbs < literalBound := by omega
  have inside : (Bounds.ofBytes 2).holds number = true := Bounds.holds_iff.mpr bounds
  simp only [WordParts.operandValue, Operand.withNumber, named, Option.map_some]
  cases kind : operand.mode.kind with
  | direct =>
      obtain ⟨natural, rfl⟩ := Int.eq_ofNat_of_zero_le (address kind)
      have bounded : arch.memorySize < literalBound := by omega
      have given := address_signedDecimal wellFormed bounded
        (show natural < arch.memorySize by omega) place
      simp only [given]
      rfl
  | immediate => exact immediate_signedDecimal wellFormed small place inside
  | _ => exact number_signedDecimal wellFormed small place inside _

include regular in
/-- The number that is shown is encoded into the same word wherever it stands. -/
theorem operandWord_withNumber {labels later : LabelTable} (wellFormed : later.WellFormed)
    {cursor : Nat} (place : Nat) {word : List UInt8}
    (given : operandWord ⟨.emit, labels, cursor⟩ arch operand = .ok word) :
    operandWord ⟨.emit, later, place⟩ arch
        (operand.withNumber (wordNumber operand.mode.kind (ByteOrder.big.decode word))) =
      .ok word := by
  by_cases wide : arch.operandBytes operand.mode.kind = 2
  · obtain ⟨⟨token, named, _⟩, _⟩ := operandWord_ok sound fits wide given
    rw [operandWord, if_pos wide] at given
    obtain ⟨value, _, rfl⟩ := Outcome.map_eq_ok.mp given
    have decoded := ByteOrder.big.decode_encode 2 value
    generalize ByteOrder.big.decode (ByteOrder.big.encode 2 value) = held at decoded
    have low := Int.emod_nonneg value (b := 256 ^ 2) (by decide)
    have high := Int.emod_lt_of_pos value (b := 256 ^ 2) (by decide)
    have bounds := wordNumber_bounds operand.mode.kind (show held < 65536 by omega)
    have address : operand.mode.kind = .direct → 0 ≤ wordNumber operand.mode.kind held := by
      intro direct
      rw [direct]
      exact Int.natCast_nonneg held
    have again := wordValue_withNumber (WordOperand.memorySize_eq regular) named wellFormed
      place bounds address
    have same : ByteOrder.big.encode 2 (wordNumber operand.mode.kind held) =
        ByteOrder.big.encode 2 value := by
      apply ByteOrder.encode_congr
      rw [wordNumber_emod, decoded, Int.emod_emod_of_dvd _ (Int.dvd_refl _)]
    rw [operandWord, Operand.mode_withNumber, if_pos wide, again, ← same]
    rfl
  · rw [operandWord, if_neg wide] at given
    rw [operandWord, Operand.mode_withNumber, if_neg wide, given]

/-- The value of an operand is a number as it is shown for some word. -/
def Operand.IsShown (operand : Operand) : Prop :=
  ∀ token ∈ operand.value, ∃ number < 65536,
    token = .word (Text.signedDecimal (wordNumber operand.mode.kind number))

omit sound fits in
include regular in
/-- The number that is shown for a word stands for itself. -/
theorem wordValue_of_shown {number : Nat} (small : number < 65536)
    (named : operand.value = some (.word (Text.signedDecimal (wordNumber operand.mode.kind number))))
    {labels : LabelTable} (wellFormed : labels.WellFormed) (cursor : Nat) :
    WordParts.operandValue ⟨.emit, labels, cursor⟩ arch operand =
      .ok (wordNumber operand.mode.kind number) := by
  have stands := wordValue_withNumber (WordOperand.memorySize_eq regular) named wellFormed cursor
    (wordNumber_bounds operand.mode.kind small) (by
      intro direct
      rw [direct]
      exact Int.natCast_nonneg number)
  rwa [Operand.withNumber_of_some named] at stands

include regular in
/-- An operand that is written as it is shown is shown as it is written. -/
theorem withNumber_of_isShown (isShown : operand.IsShown) {labels : LabelTable}
    (wellFormed : labels.WellFormed) {cursor : Nat} {word : List UInt8}
    (given : operandWord ⟨.emit, labels, cursor⟩ arch operand = .ok word) :
    operand.withNumber (wordNumber operand.mode.kind (ByteOrder.big.decode word)) = operand := by
  cases named : operand.value with
  | none => exact Operand.withNumber_of_none named _
  | some token =>
      obtain ⟨number, small, rfl⟩ := isShown token named
      have wide : arch.operandBytes operand.mode.kind = 2 := by
        obtain ⟨known, items, lexed, parts⟩ := fits
        have hasValue := parts.hasValue
        rw [named, (sound.forms _ known items lexed).1] at hasValue
        simpa using hasValue.symm
      rw [operandWord, if_pos wide, wordValue_of_shown regular small named wellFormed] at given
      have decoded := ByteOrder.big.decode_encode 2 (wordNumber operand.mode.kind number)
      rw [Except.ok.inj given, wordNumber_emod] at decoded
      have again : ByteOrder.big.decode word = number := by omega
      rw [again, Operand.withNumber_of_some named]

end Operand

/-! ## Arguments -/

/-- An argument is written as it is shown where some bytes lie. -/
def Argument.IsShown (instruction : Instruction) : Argument → Prop
  | .register _ => True
  | .operand addressed => addressed.IsShown
  | .offset text => ∃ byte, text = Machine.offsetText instruction byte
  | .flags letters => ∃ opcode, letters = Machine.flagLetters opcode

/--
What is shown for an argument fits its parameter, is written with numbers, and
is encoded as the argument was; it is the argument itself if that was written so.
-/
structure Tells (arch : Architecture) (instruction : Instruction) (scope later : Scope)
    (parameter : Parameter) (argument told : Argument) : Prop where
  fits : told.Fits arch.toDatasheet parameter
  numbered : told.IsNumbered
  alike : WordAlike scope later arch instruction argument told
  kept : scope.labels.WellFormed → argument.IsShown instruction → told = argument

section Tells

variable {instruction : Instruction} {scope : Scope} {later : LabelTable} {place : Nat}

theorem tells_register {named : RegisterSpec} (selectable : Selectable arch.toDatasheet named) :
    Tells arch instruction scope ⟨.emit, later, place⟩ .register (.register named)
      (.register named) :=
  ⟨selectable, trivial, fun _ _ _ added => added, fun _ _ => rfl⟩

/-- The letters that are shown select the bits that they were told from. -/
theorem flagBits_flagLetters (opcode : UInt8) :
    WordParts.flagBits (Machine.flagLetters opcode) = .ok (opcode.toNat % 16) ∧
      (Machine.flagLetters opcode = "" ∨
        Token.isPlainWord (Machine.flagLetters opcode).toList = true) :=
  forall_byte (motive := fun opcode =>
    WordParts.flagBits (Machine.flagLetters opcode) = .ok (opcode.toNat % 16) ∧
      (Machine.flagLetters opcode = "" ∨
        Token.isPlainWord (Machine.flagLetters opcode).toList = true))
    (by decide +kernel) opcode

/-- Only the low bits matter for the letters. -/
theorem flagLetters_congr {opcode other : UInt8}
    (same : opcode.toNat % 2 ^ 4 = other.toNat % 2 ^ 4) :
    Machine.flagLetters opcode = Machine.flagLetters other := by
  have bits : ∀ place < 4, opcode.toNat.testBit place = other.toNat.testBit place := by
    intro place inside
    have bit := congrArg (Nat.testBit · place) same
    simpa only [Nat.testBit_mod_two_pow, inside, decide_true, Bool.true_and] using bit
  simp only [Machine.flagLetters, List.filterMap_cons, List.filterMap_nil, bits 3 (by decide),
    bits 2 (by decide), bits 1 (by decide), bits 0 (by decide)]

theorem tells_flags {letters : String} {bits : Nat} {opcode : UInt8}
    (given : WordParts.flagBits letters = .ok bits) (low : opcode.toNat % 16 = bits) :
    Tells arch instruction scope ⟨.emit, later, place⟩ .flags (.flags letters)
      (.flags (Machine.flagLetters opcode)) := by
  obtain ⟨same, plain⟩ := flagBits_flagLetters opcode
  refine ⟨trivial, plain, fun parameter parts result added => ?_, ?_⟩
  · simp only [WordParts.addArgument, given] at added
    simp only [WordParts.addArgument, same, low]
    exact added
  · rintro - ⟨other, rfl⟩
    rw [(flagBits_flagLetters other).1] at given
    rw [flagLetters_congr (low.trans (Except.ok.inj given).symm)]

/-- The distance of a branch is shown as a number of a byte with or without a sign. -/
theorem offsetText_eq (instruction : Instruction) (byte : UInt8) :
    ∃ number : Int, Machine.offsetText instruction byte = Text.signedDecimal number ∧
      UInt8.ofInt number = byte ∧ -128 ≤ number ∧ number ≤ 255 := by
  have small := byte.toNat_lt
  unfold Machine.offsetText
  split
  · refine ⟨byte.toNat, Text.decimal_eq_signedDecimal _, ?_, by omega, by omega⟩
    apply UInt8.toNat_inj.mp
    have remainder := ByteOrder.toNat_ofInt (byte.toNat : Int)
    omega
  · have bounds : -128 ≤ Alu.signed 8 byte.toNat ∧ Alu.signed 8 byte.toNat < 128 :=
      Alu.signed_bounds (by decide) byte.toNat
    have same : Alu.signed 8 byte.toNat % 256 = (byte.toNat : Int) % 256 :=
      Alu.signed_emod 8 byte.toNat
    refine ⟨Alu.signed 8 byte.toNat, rfl, ?_, by omega, by omega⟩
    apply UInt8.toNat_inj.mp
    have remainder := ByteOrder.toNat_ofInt (Alu.signed 8 byte.toNat)
    omega

/-- The distance that is shown for a byte is encoded into the byte. -/
theorem offset_offsetText {labels : LabelTable} (wellFormed : labels.WellFormed) (cursor : Nat)
    (instruction : Instruction) (byte : UInt8) :
    Scope.offset ⟨.emit, labels, cursor⟩ instruction (Machine.offsetText instruction byte) =
      .ok byte := by
  obtain ⟨number, shown, held, bounds⟩ := offsetText_eq instruction byte
  have small : number.natAbs < literalBound := by
    have size : literalBound = 9223372036854775808 := rfl
    omega
  have inside : (Bounds.ofBytes 1).holds number = true := Bounds.holds_iff.mpr bounds
  rw [shown, offset_signedDecimal wellFormed small cursor instruction inside, held]

theorem tells_offset {text : String} {byte : UInt8} (wellFormed : later.WellFormed)
    {labels : LabelTable} {cursor : Nat}
    (given : Scope.offset ⟨.emit, labels, cursor⟩ instruction text = .ok byte) :
    Tells arch instruction ⟨.emit, labels, cursor⟩ ⟨.emit, later, place⟩ .offset (.offset text)
      (.offset (Machine.offsetText instruction byte)) := by
  obtain ⟨number, shown, _⟩ := offsetText_eq instruction byte
  have again := offset_offsetText wellFormed place instruction byte
  refine ⟨trivial, ⟨number, shown⟩, fun parameter parts result added => ?_, ?_⟩
  · simp only [WordParts.addArgument, given] at added
    simp only [WordParts.addArgument, again]
    exact added
  · rintro known ⟨other, rfl⟩
    rw [offset_offsetText known] at given
    rw [Except.ok.inj given]

theorem tells_operand (sound : arch.WordSound) (regular : arch.WordRegular) {operand : Operand}
    (fits : operand.Fits arch.toDatasheet) (name : String) (wellFormed : later.WellFormed)
    {labels : LabelTable} {cursor : Nat} {word : List UInt8}
    (given : operandWord ⟨.emit, labels, cursor⟩ arch operand = .ok word) :
    Tells arch instruction ⟨.emit, labels, cursor⟩ ⟨.emit, later, place⟩ (.operand name)
      (.operand operand)
      (.operand (operand.withNumber
        (wordNumber operand.mode.kind (ByteOrder.big.decode word)))) := by
  have again := operandWord_withNumber sound regular fits wellFormed place given
  refine ⟨Operand.fits_withNumber fits _, Operand.isNumbered_withNumber _ _,
    fun parameter parts result added => ?_, ?_⟩
  · obtain ⟨same, stands, rfl⟩ := addArgument_operand added
    rw [given] at stands
    rw [← Except.ok.inj stands]
    exact addArgument_of_operandWord again
  · exact fun known isShown =>
      congrArg Argument.operand (withNumber_of_isShown sound regular fits isShown known given)

end Tells

end Assembly

/-! ## Texts -/

namespace Machine

/-- How the number in an operand word is shown; displacements are signed. -/
def wordNumberText (kind : AddressingMode.Kind) (value : Nat) : String :=
  match kind with
  | .indexed | .indexedIndirect => Text.signedDecimal (Alu.signed 16 value)
  | _ => Text.decimal value

theorem wordNumberText_eq (kind : AddressingMode.Kind) (value : Nat) :
    wordNumberText kind value = Text.signedDecimal (wordNumber kind value) := by
  cases kind <;> first | exact Text.decimal_eq_signedDecimal value | rfl

variable {machine : Machine arch} (sound : arch.WordSound) (modes : arch.LegibleModes)
  {operand : Operand} (fits : operand.Fits arch.toDatasheet) {scope : Scope}
  {word : List UInt8} (given : operandWord scope arch operand = .ok word)
include sound modes fits given

/-- An operand is shown with the number in the word where it lies. -/
theorem wordOperand_shown {cursor : Nat} (there : machine.Holds cursor word) :
    machine.wordOperand operand.mode (UInt8.ofNat (WordParts.operandBits operand)) cursor =
      (operand.withNumber (wordNumber operand.mode.kind (ByteOrder.big.decode word))).text := by
  have length := WordOperand.length_operandWord sound given
  have held : (if arch.operandBytes operand.mode.kind = 2 then machine.peekNumber .big 2 cursor
      else 0) = ByteOrder.big.decode word := by
    split
    · rename_i wide
      rw [wide] at length
      rw [Holds, length] at there
      rw [peekNumber, there]
    · rename_i narrow
      unfold operandWord at given
      rw [if_neg narrow] at given
      rw [← Except.ok.inj given]
      rfl
  rw [text_withNumber sound fits modes, ← wordNumberText_eq, ← held]
  rfl

/-- An operand in the place of a parameter is shown, and what lies behind its word. -/
theorem wordArguments_operand {instruction : Instruction} {opcode second : UInt8} {name : String}
    {parameters : List Parameter} {cursor : Nat}
    (bits : operandBits opcode second name = UInt8.ofNat (WordParts.operandBits operand))
    (apart : operand.mode.kind.increments = true → operand.namesCounter arch = false)
    (there : machine.Holds cursor word) :
    machine.wordArguments instruction opcode second cursor (.operand name :: parameters) =
      (operand.withNumber (wordNumber operand.mode.kind (ByteOrder.big.decode word))).text ::
        machine.wordArguments instruction opcode second (cursor + word.length) parameters := by
  have moded := (operandBits_decodes sound fits).2.2 apart
  have length := WordOperand.length_operandWord sound given
  have next : (if arch.operandBytes operand.mode.kind = 2 then cursor + 2 else cursor) =
      cursor + word.length := by
    rw [length, Datasheet.operandBytes_of_word sound.model]
    cases operand.mode.kind <;> rfl
  simp only [wordArguments, bits, moded, next, wordOperand_shown sound modes fits given there]

end Machine

namespace Assembly

/-- What is shown for each of some arguments. -/
inductive ToldAs (arch : Architecture) (instruction : Instruction) (scope later : Scope) :
    List Parameter → List Argument → List Argument → Prop
  | nil : ToldAs arch instruction scope later [] [] []
  | cons {parameter : Parameter} {argument told : Argument} {parameters : List Parameter}
      {arguments others : List Argument} :
      Tells arch instruction scope later parameter argument told →
        ToldAs arch instruction scope later parameters arguments others →
          ToldAs arch instruction scope later (parameter :: parameters) (argument :: arguments)
            (told :: others)

section ToldAs

variable {instruction : Instruction} {scope later : Scope} {parameters : List Parameter}
  {arguments told : List Argument}
  (toldAs : ToldAs arch instruction scope later parameters arguments told)
include toldAs

theorem ToldAs.fits : List.Forall₂ (Argument.Fits arch.toDatasheet) parameters told := by
  induction toldAs with
  | nil => exact .nil
  | cons here _ induction => exact .cons here.fits induction

theorem ToldAs.numbered : ∀ argument ∈ told, argument.IsNumbered := by
  induction toldAs with
  | nil => simp
  | cons here _ induction => exact List.forall_mem_cons.mpr ⟨here.numbered, induction⟩

theorem ToldAs.alike :
    List.Forall₂ (WordAlike scope later arch instruction) arguments told := by
  induction toldAs with
  | nil => exact .nil
  | cons here _ induction => exact .cons here.alike induction

theorem ToldAs.kept (wellFormed : scope.labels.WellFormed)
    (isShown : ∀ argument ∈ arguments, argument.IsShown instruction) : told = arguments := by
  induction toldAs with
  | nil => rfl
  | cons here _ induction =>
      rw [here.kept wellFormed (isShown _ (by simp)),
        induction fun argument member => isShown argument (by simp [member])]

end ToldAs

end Assembly

/-! ## Instructions -/

namespace Machine

/-- The text of an instruction whose first byte is known. -/
theorem instructionText_of_word (wordMachine : arch.model = .word) {machine : Machine arch}
    {address : Nat} {opcode second : UInt8} {instruction : Instruction}
    (first : machine.peek address = opcode) (decoded : arch.instruction? opcode = some instruction)
    (behind : (if instruction.size = 1 then 0 else machine.peek (address + 1)) = second) :
    machine.instructionText address =
      ⟨joinArguments instruction.title (separator arch.toDatasheet)
          (machine.wordArguments instruction opcode second (address + 2) instruction.parameters),
        arch.instructionBytes instruction
          (wordKinds arch opcode second instruction.parameters)⟩ := by
  simp only [instructionText, first, decoded, wordMachine, behind]
  simp [separator, Datasheet.hasCommas, wordMachine]

theorem operandBits_source (opcode second : UInt8) :
    operandBits opcode second "a0" = FetchedWord.sourceBits opcode second := by
  simp [operandBits, FetchedWord.sourceBits]

theorem operandBits_destination (opcode second : UInt8) :
    operandBits opcode second "a1" = FetchedWord.destinationBits opcode second := by
  simp [operandBits, FetchedWord.destinationBits]

/-- The kind of an addressed operand counts. -/
theorem wordKinds_operand (sound : arch.WordSound) {operand : Operand}
    (fits : operand.Fits arch.toDatasheet)
    (apart : operand.mode.kind.increments = true → operand.namesCounter arch = false)
    {opcode second : UInt8} {name : String} (addressed : name.toList.head? = some 'a')
    (bits : operandBits opcode second name = UInt8.ofNat (WordParts.operandBits operand))
    (parameters : List Parameter) :
    wordKinds arch opcode second (.operand name :: parameters) =
      operand.mode.kind :: wordKinds arch opcode second parameters := by
  have moded := (operandBits_decodes sound fits).2.2 apart
  simp only [wordKinds, List.filterMap_cons, addressed, if_true, bits, moded, Option.map_some]

end Machine

/-- A size that is not fixed counts the first two bytes and the operands. -/
theorem instructionBytes_of_open (wordMachine : arch.model = .word) {instruction : Instruction}
    (size : instruction.size = 0) (kinds : List AddressingMode.Kind) :
    arch.instructionBytes instruction kinds = 2 + (kinds.map arch.operandBytes).sum := by
  simp only [Datasheet.instructionBytes, size, ne_eq, not_true_eq_false, if_false, wordMachine,
    Instruction.foldl_operandBytes]

theorem instructionBytes_of_fixed {instruction : Instruction} (size : instruction.size ≠ 0)
    (kinds : List AddressingMode.Kind) :
    arch.instructionBytes instruction kinds = instruction.size := by
  simp [Datasheet.instructionBytes, size]

/-- An instruction of a word machine has the bytes of its opcode and of its operands' words. -/
theorem Assembly.WordEncoded.length_eq (sound : arch.WordSound) {scope : Scope} {instruction : Instruction}
    {format : WordFormat} {arguments : List Argument} (size : instruction.size = format.size)
    {bytes : List UInt8} (encoded : WordEncoded scope arch instruction format arguments bytes) :
    bytes.length = arch.instructionBytes instruction (arguments.filterMap Argument.kind?) := by
  have word {operand : Operand} {bytes : List UInt8}
      (given : operandWord scope arch operand = .ok bytes) :=
    WordOperand.length_operandWord sound given
  cases encoded with
  | plain | flags | register | branch | loop =>
      rw [instructionBytes_of_fixed (by rw [size]; decide), size]
      rfl
  | operand fits given | call selectable fits given =>
      rw [instructionBytes_of_open sound.model size]
      simp [List.filterMap_cons, Argument.kind?, word given]
      omega
  | operands sourceFits destinationFits first second =>
      rw [instructionBytes_of_open sound.model size]
      simp [Argument.kind?, word first, word second]
      omega

/-- The register in an opcode is shown by its name. -/
theorem wordRegisterName_opcodePlus (sound : arch.WordSound) {instruction : Instruction}
    (known : instruction ∈ arch.instructions)
    (choices : instruction.operation.format.choices = 8) {named : RegisterSpec}
    (selectable : Selectable arch.toDatasheet named) :
    Machine.wordRegisterName arch
        (instruction.opcodePlus (WordParts.registerNumber named)) = named.name := by
  have small : WordParts.registerNumber named < instruction.operation.format.choices :=
    choices ▸ registerNumber_lt named
  apply wordRegisterName_eq sound selectable
  rw [← choices, toNat_opcodePlus_mod sound known small]

namespace Assembly

/--
What is shown for arguments from the bytes that they were encoded into: the
opcode, the byte behind it, and the words of the operands one behind another.
-/
inductive ToldFrom (arch : Architecture) (instruction : Instruction) (scope : Scope)
    (opcode second : UInt8) :
    List Parameter → List Argument → List Argument → List UInt8 → Prop
  | nil : ToldFrom arch instruction scope opcode second [] [] [] []
  | flags {letters : String} {parameters : List Parameter} {arguments others : List Argument}
      {words : List UInt8} : WordParts.flagBits letters = .ok (opcode.toNat % 16) →
        ToldFrom arch instruction scope opcode second parameters arguments others words →
          ToldFrom arch instruction scope opcode second (.flags :: parameters)
            (.flags letters :: arguments) (.flags (Machine.flagLetters opcode) :: others) words
  | register {named : RegisterSpec} {parameters : List Parameter}
      {arguments others : List Argument} {words : List UInt8} :
        Selectable arch.toDatasheet named → Machine.wordRegisterName arch opcode = named.name →
          ToldFrom arch instruction scope opcode second parameters arguments others words →
            ToldFrom arch instruction scope opcode second (.register :: parameters)
              (.register named :: arguments) (.register named :: others) words
  | offset {text : String} {parameters : List Parameter} {arguments others : List Argument}
      {words : List UInt8} : scope.offset instruction text = .ok second →
        ToldFrom arch instruction scope opcode second parameters arguments others words →
          ToldFrom arch instruction scope opcode second (.offset :: parameters)
            (.offset text :: arguments)
            (.offset (Machine.offsetText instruction second) :: others) words
  | operand {name : String} {operand : Operand} {word : List UInt8} {parameters : List Parameter}
      {arguments others : List Argument} {words : List UInt8} :
        operand.Fits arch.toDatasheet → operandWord scope arch operand = .ok word →
          name.toList.head? = some 'a' →
            Machine.operandBits opcode second name =
                UInt8.ofNat (WordParts.operandBits operand) →
              (operand.mode.kind.increments = true → operand.namesCounter arch = false) →
                ToldFrom arch instruction scope opcode second parameters arguments others words →
                  ToldFrom arch instruction scope opcode second (.operand name :: parameters)
                    (.operand operand :: arguments)
                    (.operand (operand.withNumber
                      (wordNumber operand.mode.kind (ByteOrder.big.decode word))) :: others)
                    (word ++ words)

section ToldFrom

variable {instruction : Instruction} {labels : LabelTable} {cursor : Nat} {opcode second : UInt8}
  {parameters : List Parameter} {arguments told : List Argument} {words : List UInt8}
  (sound : arch.WordSound)
  (toldFrom : ToldFrom arch instruction ⟨.emit, labels, cursor⟩ opcode second parameters arguments
    told words)
include sound toldFrom

theorem ToldFrom.toldAs (regular : arch.WordRegular) {later : LabelTable}
    (wellFormed : later.WellFormed) (place : Nat) :
    ToldAs arch instruction ⟨.emit, labels, cursor⟩ ⟨.emit, later, place⟩ parameters arguments
      told := by
  induction toldFrom with
  | nil => exact .nil
  | flags given _ induction => exact .cons (tells_flags given rfl) induction
  | register selectable _ _ induction => exact .cons (tells_register selectable) induction
  | offset given _ induction => exact .cons (tells_offset wellFormed given) induction
  | operand fits given _ _ _ _ induction =>
      exact .cons (tells_operand sound regular fits _ wellFormed given) induction

/-- The texts that are shown are those of what is told. -/
theorem ToldFrom.texts (modes : arch.LegibleModes) {machine : Machine arch} {address : Nat}
    (there : machine.Holds address words) :
    machine.wordArguments instruction opcode second address parameters = told.map (·.text) := by
  induction toldFrom generalizing address with
  | nil => rfl
  | flags _ _ induction | offset _ _ induction =>
      rw [Machine.wordArguments, induction there]
      rfl
  | register _ name _ induction =>
      rw [Machine.wordArguments, induction there, name]
      rfl
  | operand fits given _ bits apart _ induction =>
      obtain ⟨here, further⟩ := Machine.holds_append.mp there
      rw [Machine.wordArguments_operand sound modes fits given bits apart here, induction further]
      rfl

theorem ToldFrom.kinds :
    Machine.wordKinds arch opcode second parameters = arguments.filterMap Argument.kind? := by
  induction toldFrom with
  | nil => rfl
  | flags _ _ induction | offset _ _ induction | register _ _ _ induction => exact induction
  | operand fits _ addressed bits apart _ induction =>
      rw [Machine.wordKinds_operand sound fits apart addressed bits, induction]
      rfl

end ToldFrom

/-- The second byte is looked at, and the words of the operands lie behind it. -/
theorem second_of_holds {instruction : Instruction} (double : instruction.size ≠ 1)
    {machine : Machine arch} {address : Nat} {first second : UInt8} {words : List UInt8}
    (there : machine.Holds address (first :: second :: words)) :
    (if instruction.size = 1 then 0 else machine.peek (address + 1)) = second ∧
      machine.Holds (address + 2) words := by
  obtain ⟨_, behind⟩ := Machine.holds_cons.mp there
  rw [if_neg double]
  exact Machine.holds_cons.mp behind

/-- The bytes of an encoded instruction tell its arguments one after another. -/
theorem exists_toldFrom (sound : arch.WordSound) {instruction : Instruction}
    (known : instruction ∈ arch.instructions) {format : WordFormat}
    (formatted : instruction.operation.format = format) {scope : Scope}
    {arguments : List Argument} {bytes : List UInt8}
    (encoded : WordEncoded scope arch instruction format arguments bytes)
    (apart : ∀ operand ∈ writtenOperands arguments,
      operand.mode.kind.increments = true → operand.namesCounter arch = false)
    {machine : Machine arch} {address : Nat} (there : machine.Holds address bytes) :
    ∃ told words, ToldFrom arch instruction scope (machine.peek address)
        (if instruction.size = 1 then 0 else machine.peek (address + 1)) format.parameters arguments
        told words ∧
      machine.Holds (address + 2) words ∧
        (told.length ≤ 1 ∨ ∀ argument ∈ told, argument.letters? = none) := by
  have size := size_eq_of_format sound known formatted
  have name {named : RegisterSpec} (choices : format.choices = 8)
      (selectable : Selectable arch.toDatasheet named) :=
    wordRegisterName_opcodePlus sound known (by rw [formatted, choices]) selectable
  cases encoded with
  | plain => exact ⟨[], [], .nil, Machine.holds_nil _, .inl (by simp)⟩
  | flags given =>
      have low := toNat_opcodePlus_mod sound known (by rw [formatted]; exact (flagBits_ok given).1)
      rw [formatted, ← (Machine.holds_cons.mp there).1] at low
      exact ⟨_, [], .flags (given.trans (congrArg _ low.symm)) .nil, Machine.holds_nil _,
        .inl (by simp)⟩
  | register selectable =>
      have named := name rfl selectable
      rw [← (Machine.holds_cons.mp there).1] at named
      exact ⟨_, [], .register selectable named .nil, Machine.holds_nil _, .inl (by simp)⟩
  | branch given =>
      obtain ⟨second, _⟩ := second_of_holds (by rw [size]; decide) there
      rw [← second] at given
      exact ⟨_, [], .offset given .nil, Machine.holds_nil _, .inl (by simp)⟩
  | loop selectable given =>
      obtain ⟨second, _⟩ := second_of_holds (by rw [size]; decide) there
      have named := name rfl selectable
      rw [← (Machine.holds_cons.mp there).1] at named
      rw [← second] at given
      exact ⟨_, [], .register selectable named (.offset given .nil), Machine.holds_nil _,
        .inr (by simp [Argument.letters?])⟩
  | @operand operand _ fits given =>
      obtain ⟨second, words⟩ := second_of_holds (by rw [size]; decide) there
      have moves := apart operand (by simp [writtenOperands, Argument.operand?])
      exact ⟨_, _, .operand fits given rfl second moves .nil, by simpa using words,
        .inl (by simp)⟩
  | @call _ operand _ selectable fits given =>
      obtain ⟨second, words⟩ := second_of_holds (by rw [size]; decide) there
      have named := name rfl selectable
      rw [← (Machine.holds_cons.mp there).1] at named
      have moves := apart operand (by simp [writtenOperands, Argument.operand?])
      exact ⟨_, _, .register selectable named (.operand fits given rfl second moves .nil),
        by simpa using words, .inr (by simp [Argument.letters?])⟩
  | @operands source destination _ _ sourceFits destinationFits firstGiven secondGiven =>
      obtain ⟨second, words⟩ := second_of_holds (by rw [size]; decide) there
      obtain ⟨sourceBits, destinationBits⟩ := bits_of_operands sound known formatted
        (operandBits_lt sound sourceFits) (operandBits_lt sound destinationFits)
      rw [← (Machine.holds_cons.mp there).1, ← second] at sourceBits destinationBits
      rw [← Machine.operandBits_source] at sourceBits
      rw [← Machine.operandBits_destination] at destinationBits
      have sourceMoves := apart source (by simp [writtenOperands, Argument.operand?])
      have destinationMoves := apart destination (by simp [writtenOperands, Argument.operand?])
      exact ⟨_, _, .operand sourceFits firstGiven rfl sourceBits sourceMoves
          (.operand destinationFits secondGiven rfl destinationBits destinationMoves .nil),
        by simpa using words, .inr (by simp [Argument.letters?])⟩

end Assembly

/-- The text of an encoded instruction tells its arguments, and its size is that of the bytes. -/
theorem exists_told (sound : arch.WordSound) (regular : arch.WordRegular)
    (modes : arch.LegibleModes) {instruction : Instruction}
    (known : instruction ∈ arch.instructions) {arguments : List Argument}
    {labels later : LabelTable} (wellFormed : later.WellFormed) {cursor : Nat} (place : Nat)
    {bytes : List UInt8}
    (apart : ∀ operand ∈ writtenOperands arguments,
      operand.mode.kind.increments = true → operand.namesCounter arch = false)
    {machine : Machine arch} {address : Nat} (there : machine.Holds address bytes)
    (encoded : WordEncoded ⟨.emit, labels, cursor⟩ arch instruction instruction.operation.format
      arguments bytes) :
    ∃ told, ToldAs arch instruction ⟨.emit, labels, cursor⟩ ⟨.emit, later, place⟩
        instruction.parameters arguments told ∧
      (told.length ≤ 1 ∨ ∀ argument ∈ told, argument.letters? = none) ∧
        machine.instructionText address =
          ⟨Machine.joinArguments instruction.title (separator arch.toDatasheet)
            (told.map (·.text)), bytes.length⟩ := by
  obtain ⟨parameters, size⟩ := sound.formed known
  obtain ⟨told, words, toldFrom, behind, seen⟩ :=
    exists_toldFrom sound known rfl encoded apart there
  rw [← parameters] at toldFrom
  refine ⟨told, toldFrom.toldAs sound regular wellFormed place, seen, ?_⟩
  rw [Machine.instructionText_of_word sound.model rfl (encoded.decoded sound known there) rfl,
    toldFrom.texts sound modes behind, toldFrom.kinds sound, encoded.length_eq sound size]

/-- Where a written instruction of a word machine lies, it is shown so that it is encoded again. -/
theorem wordInstruction_shown (sound : arch.WordSound) (regular : arch.WordRegular)
    (legible : arch.Legible) {statement : String} {instruction : Instruction}
    {arguments : List Argument}
    (written : writtenInstruction? arch statement = some (instruction, arguments))
    (apart : ∀ operand ∈ writtenOperands arguments,
      operand.mode.kind.increments = true → operand.namesCounter arch = false)
    {labels : LabelTable} {cursor : Nat} {bytes : List UInt8}
    (encoded : encode ⟨.emit, labels, cursor⟩ arch instruction arguments = .ok bytes)
    {machine : Machine arch} {address : Nat} (there : machine.Holds address bytes)
    {later : LabelTable} (wellFormed : later.WellFormed) (place : Nat) :
    (machine.instructionText address).size = bytes.length ∧
      statementEffect ⟨.emit, later, place⟩ arch (machine.instructionText address).text =
        .ok (.data bytes) := by
  have known := mem_instructions_of_written written
  obtain ⟨told, toldAs, seen, text⟩ := exists_told sound regular legible.modes known wellFormed
    place apart there (wordEncoded_of_written sound written encoded)
  have visible : told.length ≤ 1 ∨ ∀ argument ∈ told, argument.IsVisible := by
    refine seen.imp_right fun noLetters argument member => ?_
    obtain ⟨parameter, fits⟩ := exists_parameter toldAs.fits argument member
    exact isVisible_of_fits legible fits (noLetters argument member)
  have commas : arch.hasCommas = true := by simp [Datasheet.hasCommas, sound.model]
  have again := writtenInstruction?_joinArguments legible rfl known toldAs.fits toldAs.numbered
    visible (.inl commas)
  rw [encode_of_word sound.model] at encoded
  rw [text]
  refine ⟨rfl, ?_⟩
  rw [statementEffect_of_written again, encode_of_word sound.model,
    encodeWord_of_alike toldAs.alike encoded]
  rfl

end ClassroomCpu
