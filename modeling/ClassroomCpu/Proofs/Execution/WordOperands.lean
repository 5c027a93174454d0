import ClassroomCpu.Proofs.Execution.WordAgreement
import ClassroomCpu.Proofs.Execution.WordStep

/-!
# Written operands of word machines

Where the word of a written operand lies, the operand is found and read as it
was written, as long as it does not move the program counter by its register.
-/

namespace ClassroomCpu

open Assembly

variable {arch : Architecture}

namespace Assembly

/-- Whether an operand moves the program counter, which it names. -/
def Operand.movesCounter (arch : Architecture) (operand : Operand) : Bool :=
  operand.namesCounter arch
    && (operand.mode.kind.increments || operand.mode.kind.decrements)

section Word

variable {labels : LabelTable} {cursor : Nat} {operand : Operand} {word : List UInt8}

/-- The value of the word of an operand: its number, or the address that this means. -/
theorem wordOperandValue_ok {token : Token} (named : operand.value = some token) {value : Int}
    (given : WordParts.operandValue ⟨.emit, labels, cursor⟩ arch operand = .ok value) :
    operandNumber? labels token = some (operand.number labels) ∧
      value = if operand.mode.kind = .direct then ((arch.wrap (operand.number labels) : Nat) : Int)
        else operand.number labels := by
  have number_eq : ∀ {number : Int}, operandNumber? labels token = some number →
      operand.number labels = number := by
    intro number stands
    simp [Operand.number, named, stands]
  unfold WordParts.operandValue at given
  rw [named] at given
  cases kind : operand.mode.kind with
  | direct =>
      rw [kind] at given
      obtain ⟨result, found, rfl⟩ := Outcome.map_eq_ok.mp given
      obtain ⟨address, located, same⟩ := Outcome.bind_eq_ok.mp found
      obtain ⟨number, stands, rfl⟩ := address_ok located
      rw [← Outcome.pure_eq_ok.mp same, number_eq stands]
      exact ⟨stands, rfl⟩
  | immediate =>
      rw [kind] at given
      have stands := (immediate_ok (by decide) given).1
      rw [number_eq stands]
      exact ⟨stands, rfl⟩
  | _ =>
      rw [kind] at given
      have stands := (number_ok given).1
      rw [number_eq stands]
      exact ⟨stands, rfl⟩

/-- The word of an operand is that of its number, or of the address that this means. -/
theorem operandWord_ok (sound : arch.WordSound) (fits : operand.Fits arch.toDatasheet)
    (wide : arch.operandBytes operand.mode.kind = 2)
    (given : operandWord ⟨.emit, labels, cursor⟩ arch operand = .ok word) :
    (∃ token, operand.value = some token ∧
      operandNumber? labels token = some (operand.number labels)) ∧
      word = ByteOrder.big.encode 2 (if operand.mode.kind = .direct then
        ((arch.wrap (operand.number labels) : Nat) : Int) else operand.number labels) := by
  rw [operandWord, if_pos wide] at given
  obtain ⟨value, valued, rfl⟩ := Outcome.map_eq_ok.mp given
  obtain ⟨known, items, lexed, parts⟩ := fits
  have named := parts.hasValue
  rw [(sound.forms operand.mode known items lexed).1, wide, beq_self_eq_true] at named
  obtain ⟨token, same⟩ := Option.isSome_iff_exists.mp named
  have stands := wordOperandValue_ok same valued
  exact ⟨⟨token, same, stands.1⟩, by rw [stands.2]⟩

end Word

end Assembly

namespace WordOperand

section Located

variable (regular : arch.WordRegular) (sound : arch.WordSound) {labels : LabelTable}
  {cursor : Nat} {operand : Operand} (fits : operand.Fits arch.toDatasheet)
  (apart : operand.movesCounter arch = false)
include sound fits apart

/-- The bits of an operand select its kind of addressing. -/
theorem operandKind_eq :
    Exec.operandKind arch (UInt8.ofNat (WordParts.operandBits operand)) = operand.mode.kind := by
  have moded := (operandBits_decodes sound fits).2.2
  have mode := moded (by
    intro increments
    simpa [Operand.movesCounter, increments] using apart)
  simp only [Exec.operandKind, mode]

omit apart in
/-- The bits of an operand select its register. -/
theorem registerNumber_eq :
    FetchedWord.registerNumber (UInt8.ofNat (WordParts.operandBits operand)) =
      arch.operandPlace operand.register := by
  obtain ⟨small, place, _⟩ := operandBits_decodes sound fits
  rw [← place, FetchedWord.registerNumber, UInt8.toNat_ofNat']
  omega

omit fits apart in
/-- A register that operands can name is found at its place. -/
theorem registerPlace_eq {named : RegisterSpec} (selectable : Selectable arch.toDatasheet named) :
    ∃ index : Fin arch.registers.length, arch.registerAt? named.name = some index ∧
      registerPlace arch (some named) = index ∧ WordParts.registerNumber named = index := by
  obtain ⟨index, found, _, place⟩ := sound.names named selectable
  exact ⟨index, found, by simp [registerPlace, found], place⟩

/-- An operand does not go back through the program counter. -/
theorem movesBack_eq_false :
    Instruction.movesBack arch (UInt8.ofNat (WordParts.operandBits operand)) = false := by
  have isSome := isSome_register sound fits
  have selectable := selectable_register fits
  simp only [Instruction.movesBack, operandKind_eq sound fits apart, registerNumber_eq sound fits]
  cases register : operand.register with
  | none =>
      have follows : operand.mode.followsOpcode = true := by simpa [register] using isSome
      rw [AddressingMode.followsOpcode] at follows
      cases kind : operand.mode.kind <;> simp_all
  | some named =>
      obtain ⟨index, found, _, place⟩ := registerPlace_eq sound (selectable named register)
      simp only [Architecture.operandPlace, place]
      by_cases same : index = arch.counter
      · rw [Operand.movesCounter, Operand.namesCounter, register] at apart
        cases kind : operand.mode.kind <;>
          simp_all [AddressingMode.Kind.increments, AddressingMode.Kind.decrements]
      · have other : (index : Nat) ≠ arch.counter := fun value => same (Fin.ext value)
        simp [other]

end Located

/-! ## Finding and reading operands -/

section Written

variable (regular : arch.WordRegular) (sound : arch.WordSound) {labels : LabelTable}
  {cursor : Nat} {operand : Operand} (fits : operand.Fits arch.toDatasheet) {word : List UInt8}
  (given : operandWord ⟨.emit, labels, cursor⟩ arch operand = .ok word)
  {machine : Machine arch} (there : machine.Holds machine.counter word)

include regular in
theorem memorySize_eq : arch.memorySize = 65536 := by
  rw [← regular.size, Architecture.counterSize, regular.wide]
  rfl

include regular in
/-- A word that is added to a register may be taken for its number. -/
theorem cell_add_eq {base number : Nat} {value : Int} (same : (number : Int) = value % 256 ^ 2) :
    arch.cell (base + number) = arch.wrap (value + base) := by
  have size := memorySize_eq regular
  rw [← Architecture.wrap_natCast]
  apply Architecture.wrap_congr
  rw [size]
  omega

include sound fits in
/-- An operand through the program counter has its place. -/
theorem operandPlace_of_follows (follows : operand.mode.followsOpcode = true) :
    arch.operandPlace operand.register = arch.counter := by
  have isSome := isSome_register sound fits
  rw [follows] at isSome
  have noRegister : operand.register = none := by simpa using isSome
  rw [noRegister]
  rfl

include sound fits in
/-- An operand that names a register has the place of the register. -/
theorem exists_operandPlace (names : operand.mode.followsOpcode = false) :
    ∃ index : Fin arch.registers.length, arch.operandPlace operand.register = index ∧
      registerPlace arch operand.register = index := by
  have isSome := isSome_register sound fits
  rw [names] at isSome
  obtain ⟨register, same⟩ := Option.isSome_iff_exists.mp isSome
  obtain ⟨index, _, place, number⟩ :=
    registerPlace_eq sound (selectable_register fits register same)
  rw [same]
  exact ⟨index, number, place⟩

include sound fits given there in
/-- The number of an operand with a word, or the address that it means, lies there. -/
theorem holds_number (wide : arch.operandBytes operand.mode.kind = 2) :
    machine.Holds machine.counter (ByteOrder.big.encode 2 (if operand.mode.kind = .direct then
      ((arch.wrap (operand.number labels) : Nat) : Int) else operand.number labels)) := by
  rw [← (operandWord_ok sound fits wide given).2]
  exact there

include regular sound fits given there in
/-- An operand is found where it was written. -/
theorem locate_eq_written :
    Exec.locate operand.mode.kind (arch.operandPlace operand.register) machine =
      writtenLocation arch operand.mode.kind (operand.number labels)
        (registerPlace arch operand.register) machine := by
  have bytes := holds_number sound fits given there
  have throughCounter := operandPlace_of_follows sound fits
  have named := exists_operandPlace sound fits
  rw [AddressingMode.followsOpcode] at throughCounter named
  rw [Datasheet.operandBytes_of_word sound.model] at bytes
  cases kind : operand.mode.kind with
  | immediate =>
      rw [throughCounter (by simp [kind])]
      simp only [Exec.locate, writtenLocation,
        Exec.bind_of_ok (Exec.readRegister_apply arch.counter machine),
        Exec.bind_of_ok (Exec.writeRegister_apply arch.counter _ machine)]
      rfl
  | direct =>
      rw [kind] at bytes
      have moved : (machine.setRegister arch.counter (machine.register arch.counter + 2)).Holds
          (arch.cell (machine.register arch.counter)) (ByteOrder.big.encode 2
            ((arch.wrap (operand.number labels) : Nat) : Int)) :=
        (bytes rfl).congr rfl (Nat.mod_mod _ _)
      have small : (arch.wrap (operand.number labels) : Nat) < 256 ^ 2 :=
        Nat.lt_of_lt_of_eq (arch.wrap (operand.number labels)).isLt (memorySize_eq regular)
      have word := moved.peekNumber_of_lt small
      rw [throughCounter (by simp [kind])]
      simp only [Exec.locate, writtenLocation,
        Exec.bind_of_ok (Exec.readRegister_apply arch.counter machine),
        Exec.bind_of_ok (Exec.writeRegister_apply arch.counter _ machine),
        Exec.bind_of_ok (Exec.counter_apply machine),
        Exec.bind_of_ok (Exec.setCounter_apply _ machine),
        Exec.bind_of_ok (Exec.passOver_apply 2 _), Exec.follow_apply, word, arch.cell_val]
      rfl
  | indexed | indexedIndirect =>
      obtain ⟨index, place, writtenPlace⟩ := named (by simp [kind])
      rw [kind] at bytes
      have word := (bytes rfl).peekNumber_eq
      rw [place, writtenPlace]
      simp only [Exec.locate, writtenLocation, Exec.bind_of_ok (Exec.nextWord_apply machine),
        Exec.bind_of_ok (Exec.passBytes_apply 2 machine),
        Exec.bind_of_ok (Exec.readRegister_apply index _), cell_add_eq regular word]
      rfl
  | _ =>
      obtain ⟨index, place, writtenPlace⟩ := named (by simp [kind])
      rw [place, writtenPlace]
      rfl

include sound fits given there in
/-- An operand is read as it was written. -/
theorem load_eq_written {location : Location} {between : Machine arch}
    (found : writtenLocation arch operand.mode.kind (operand.number labels)
      (registerPlace arch operand.register) machine = .ok location between) :
    Exec.load location between =
      writtenLoad operand.mode.kind (operand.number labels) location between := by
  cases kind : operand.mode.kind with
  | immediate =>
      rw [kind] at found
      have own : (pure (.memory (arch.cell machine.counter)) : Exec arch Location)
          (machine.setCounter (machine.counter + 2)) = .ok location between := found
      rw [Exec.pure_apply] at own
      obtain ⟨rfl, rfl⟩ := EStateM.Result.ok.inj own
      have wide : arch.operandBytes operand.mode.kind = 2 := by
        rw [kind, Datasheet.operandBytes_of_word sound.model]
      have bytes := (operandWord_ok sound fits wide given).2
      rw [kind, if_neg (by simp)] at bytes
      have moved : (machine.setCounter (machine.counter + 2)).Holds (arch.cell machine.counter)
          (ByteOrder.big.encode 2 (operand.number labels)) :=
        (bytes ▸ there).congr rfl (Nat.mod_mod _ _)
      have value := moved.peekNumber_eq
      simp only [Exec.load, writtenLoad, Exec.readWord_apply,
        Exec.bind_of_ok (Exec.passOver_apply 2 _), Exec.pure_apply]
      congr 1
      omega
  | _ => rfl

include regular sound fits given there in
/-- An operand in memory is the written one. -/
theorem sameAt_written (apart : operand.movesCounter arch = false) :
    (ofBits arch (UInt8.ofNat (WordParts.operandBits operand))).SameAt
      (.written arch labels (some operand)) machine where
  kind := operandKind_eq sound fits apart
  locate := by
    simp only [ofBits, operandKind_eq sound fits apart, registerNumber_eq sound fits]
    exact locate_eq_written regular sound fits given there
  load location between found := load_eq_written sound fits given there found

end Written

/-! ## The operand behind an operand -/

/-- Reading an operand changes neither memory nor the program counter. -/
theorem load_keeps {location : Location} {machine after : Machine arch} {value : Nat}
    (read : Exec.load location machine = .ok value after) :
    after.memory = machine.memory ∧ after.counter = machine.counter := by
  cases location with
  | register number =>
      by_cases inside : number < arch.registers.length
      · have value_read := Exec.readRegister_apply ⟨number, inside⟩ machine
        obtain ⟨_, rfl⟩ := EStateM.Result.ok.inj (value_read.symm.trans read)
        exact ⟨rfl, rfl⟩
      · have fails : (Exec.readRegister number : Exec arch Nat) machine =
            .error (.registerNumber arch.registers.length number) machine := by
          rw [Exec.readRegister, Exec.numberedRegister, dif_neg inside]
          rfl
        exact absurd (fails.symm.trans read) (by simp)
  | memory address =>
      rw [Exec.load, Exec.readWord_apply] at read
      obtain ⟨_, rfl⟩ := EStateM.Result.ok.inj read
      exact ⟨Machine.memory_countAccesses _ 2, Machine.counter_countAccesses _ 2⟩

/-- The word of an operand has the bytes that its kind of addressing takes. -/
theorem length_operandWord (sound : arch.WordSound) {scope : Scope} {operand : Operand}
    {word : List UInt8} (given : operandWord scope arch operand = .ok word) :
    word.length = arch.operandBytes operand.mode.kind := by
  unfold operandWord at given
  split at given
  · rename_i wide
    obtain ⟨value, _, rfl⟩ := Outcome.map_eq_ok.mp given
    rw [wide, ByteOrder.length_encode]
  · rename_i narrow
    rw [← Except.ok.inj given]
    rw [Datasheet.operandBytes_of_word sound.model] at narrow ⊢
    cases kind : operand.mode.kind <;> simp_all

/-- The second operand in memory is the written one, too, once the first one has been read. -/
theorem sameAt_written_behind (regular : arch.WordRegular) (sound : arch.WordSound)
    {labels : LabelTable} {cursor : Nat} {source destination : Operand}
    (sourceFits : source.Fits arch.toDatasheet)
    (destinationFits : destination.Fits arch.toDatasheet) {first second : List UInt8}
    (firstGiven : operandWord ⟨.emit, labels, cursor⟩ arch source = .ok first)
    (secondGiven : operandWord ⟨.emit, labels, cursor⟩ arch destination = .ok second)
    (sourceApart : source.movesCounter arch = false)
    (destinationApart : destination.movesCounter arch = false)
    {machine between after : Machine arch} (bounded : machine.counter < arch.counterSize)
    (there : machine.Holds machine.counter (first ++ second)) {place : Location} {value : Nat}
    (located : (written arch labels (some source)).locate machine = .ok place between)
    (read : (written arch labels (some source)).load place between = .ok value after) :
    (ofBits arch (UInt8.ofNat (WordParts.operandBits destination))).SameAt
      (written arch labels (some destination)) after := by
  obtain ⟨firstThere, secondThere⟩ := Machine.holds_append.mp there
  have same := sameAt_written regular sound sourceFits firstGiven firstThere sourceApart
  obtain ⟨_, _, ends, moved, memory, _⟩ :=
    regular.ends_locate (movesBack_eq_false sound sourceFits sourceApart) bounded
  obtain ⟨rfl, rfl⟩ := EStateM.Result.ok.inj (ends.symm.trans (same.locate.trans located))
  obtain ⟨memoryAfter, counterAfter⟩ :=
    load_keeps ((same.load _ _ located).trans read)
  apply sameAt_written regular sound destinationFits secondGiven _ destinationApart
  apply secondThere.congr (memoryAfter.trans memory)
  rw [counterAfter, moved, operandKind_eq sound sourceFits sourceApart,
    ← length_operandWord sound firstGiven, regular.size, Nat.mod_mod]

end WordOperand

end ClassroomCpu
