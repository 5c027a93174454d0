import ClassroomCpu.Proofs.Assembly.ArgumentFit
import ClassroomCpu.Proofs.Assembly.WrittenInstruction
import Mathlib.Algebra.Group.Nat.Defs

/-!
# The bytes of an instruction of a word machine

The instructions of a word machine are written in eight formats, which go with
their operations.  The first two bytes hold the opcode, the registers and the
addressing modes side by side, so that none of them disturbs another; the words
of the operands follow in their order.
-/

namespace ClassroomCpu

/-! ## Formats -/

/-- What an instruction of a word machine is written with. -/
inductive WordFormat
  | plain
  | flags
  | register
  | branch
  | loop
  | operand
  | call
  | operands
  deriving DecidableEq, Repr

namespace WordFormat

/-- The parameters of an instruction in the format. -/
def parameters : WordFormat → List Parameter
  | plain => []
  | flags => [.flags]
  | register => [.register]
  | branch => [.offset]
  | loop => [.register, .offset]
  | operand => [.operand "a"]
  | call => [.register, .operand "a"]
  | operands => [.operand "a0", .operand "a1"]

/-- The fixed size of an instruction in the format; zero if it depends on operands. -/
def size : WordFormat → Nat
  | plain | flags | register => 1
  | branch | loop => 2
  | operand | call | operands => 0

/-- The number of first bytes that an instruction in the format may have. -/
def choices : WordFormat → Nat
  | flags | operands => 16
  | register | loop | call => 8
  | plain | branch | operand => 1

end WordFormat

/-- The format that goes with an operation on a word machine. -/
def Operation.format : Operation → WordFormat
  | clearFlags | setFlags => .flags
  | branch _ => .branch
  | loop => .loop
  | ret => .register
  | call => .call
  | jump .always | clear | not | inc | dec | neg | test | rotateRight | rotateLeft | halve
  | double | addCarry | subCarry => .operand
  | move | add | sub | compare | and | or => .operands
  | _ => .plain

namespace Instruction

/-- Whether the instruction is written in the format that goes with its operation. -/
def hasFormat (instruction : Instruction) : Bool :=
  instruction.parameters == instruction.operation.format.parameters
    && instruction.size == instruction.operation.format.size

/-- The first byte with a number in the places that the pattern leaves open. -/
def opcodePlus (instruction : Instruction) (number : Nat) : UInt8 :=
  UInt8.ofNat (instruction.opcode.toNat + number)

end Instruction

/-! ## Operands through the program counter -/

/-- Whether a register is moved on after the operand has been found. -/
def AddressingMode.Kind.increments : AddressingMode.Kind → Bool
  | postIncrement | postIncrementIndirect => true
  | _ => false

/-- Whether a register is moved back before the operand is found. -/
def AddressingMode.Kind.decrements : AddressingMode.Kind → Bool
  | preDecrement | preDecrementIndirect => true
  | _ => false

open Assembly

/-- Whether an operand is written with the program counter as its register. -/
def Assembly.Operand.namesCounter (arch : Architecture) (operand : Operand) : Bool :=
  operand.register.any fun named => arch.registerAt? named.name == some arch.counter

/-! ## Sound word machines -/

/-- The place of a register in the bits of an operand; without one, the program counter. -/
def Architecture.operandPlace (arch : Architecture) : Option RegisterSpec → Nat
  | some named => WordParts.registerNumber named
  | none => arch.counter

/-- A word machine whose instructions and operands can be told from their bytes. -/
structure Architecture.WordSound (arch : Architecture) : Prop where
  model : arch.model = .word
  formats : ∀ instruction ∈ arch.instructions, instruction.hasFormat = true
  /-- The first byte tells the instruction. -/
  decodes : ∀ instruction ∈ arch.instructions,
    instruction.opcode.toNat % instruction.operation.format.choices = 0 ∧
      ∀ number < instruction.operation.format.choices,
        arch.instruction? (instruction.opcodePlus number) = some instruction
  /-- A register that operands can name is found under its name and at its place. -/
  names : ∀ named, Selectable arch.toDatasheet named →
    ∃ index : Fin arch.registers.length, arch.registerAt? named.name = some index ∧
      arch.registers.get index = named ∧ WordParts.registerNumber named = index
  /-- An operand is written with a value if it has a word, and with a register if it names one. -/
  forms : ∀ mode ∈ arch.addressingModes, ∀ items, formItems mode.form = .ok items →
    items.contains .value = (arch.operandBytes mode.kind == 2) ∧
      items.contains .register = !mode.followsOpcode
  /--
  The bits of an operand tell the mode and the register, except that moving the
  program counter on is another mode.
  -/
  operands : ∀ mode ∈ arch.addressingModes, ∀ register, register.isSome = !mode.followsOpcode →
    (∀ named ∈ register, Selectable arch.toDatasheet named) →
      let operand : Operand := ⟨⟨none, register⟩, mode⟩
      WordParts.operandBits operand < 64 ∧
        WordParts.operandBits operand % 8 = arch.operandPlace register ∧
          ((mode.kind.increments = true → operand.namesCounter arch = false) →
            arch.wordAddressingMode? (UInt8.ofNat (WordParts.operandBits operand)) = some mode)

/-- An instruction has the parameters and the size of its format. -/
theorem Architecture.WordSound.formed {arch : Architecture} (sound : arch.WordSound)
    {instruction : Instruction} (known : instruction ∈ arch.instructions) :
    instruction.parameters = instruction.operation.format.parameters ∧
      instruction.size = instruction.operation.format.size := by
  have formed := sound.formats instruction known
  rwa [Instruction.hasFormat, Bool.and_eq_true, beq_iff_eq, beq_iff_eq] at formed

namespace Assembly

variable {scope : Scope} {arch : Architecture} {instruction : Instruction}

/-! ## Bits side by side -/

theorem or_eq_add (width : Nat) {high low : Nat} (aligned : high % 2 ^ width = 0) (small : low < 2 ^ width) :
    high ||| low = high + low := by
  have whole : high = 2 ^ width * (high / 2 ^ width) := (Nat.mul_div_cancel' (Nat.dvd_of_mod_eq_zero aligned)).symm
  rw [whole, ← Nat.two_pow_add_eq_or_of_lt small]

/-- The letters of the condition codes, with the places of their bits. -/
def flagPlaces : List (Char × Nat) :=
  [('n', 3), ('z', 2), ('v', 1), ('c', 0)]

theorem testBit_of_lookup {letter : Char} {bit : Nat}
    (found : [('n', 8), ('z', 4), ('v', 2), ('c', 1)].lookup letter = some bit) :
    bit < 16 ∧ ∀ flag ∈ flagPlaces, bit.testBit flag.2 = (letter == flag.1) := by
  obtain ⟨front, behind, same, _⟩ := List.lookup_eq_some_iff.mp found
  have among : (letter, bit) ∈ [('n', 8), ('z', 4), ('v', 2), ('c', 1)] := by
    rw [same]
    exact List.mem_append_right front List.mem_cons_self
  simp only [List.mem_cons, Prod.mk.injEq, List.not_mem_nil, or_false] at among
  rcases among with ⟨rfl, rfl⟩ | ⟨rfl, rfl⟩ | ⟨rfl, rfl⟩ | ⟨rfl, rfl⟩ <;> decide

/-- The bits with that of one more letter. -/
def addFlag (letters : String) (bits : Nat) (letter : Char) : Outcome Nat :=
  match [('n', 8), ('z', 4), ('v', 2), ('c', 1)].lookup letter.toLower with
  | some bit => .ok (bits ||| bit)
  | none => reject (.invalidArgument letters)

/-- Further letters leave the bits that are set, and set their own. -/
theorem foldlM_addFlag {letters : String} {list : List Char} {start result : Nat}
    (small : start < 16) (folded : list.foldlM (addFlag letters) start = .ok result) :
    result < 16 ∧ ∀ flag ∈ flagPlaces, result.testBit flag.2 =
      (start.testBit flag.2 || list.any fun letter => letter.toLower == flag.1) := by
  induction list generalizing start with
  | nil =>
      rw [← Outcome.pure_eq_ok.mp folded]
      exact ⟨small, by simp⟩
  | cons letter list induction =>
      obtain ⟨middle, first, rest⟩ := Outcome.bind_eq_ok.mp folded
      rw [addFlag] at first
      split at first
      · rename_i bit found
        obtain rfl := Except.ok.inj first
        obtain ⟨smallBit, places⟩ := testBit_of_lookup found
        obtain ⟨bounded, further⟩ := induction (Nat.or_lt_two_pow small smallBit (n := 4)) rest
        refine ⟨bounded, fun flag member => ?_⟩
        rw [further flag member, Nat.testBit_or, places flag member, List.any_cons, Bool.or_assoc]
      · exact absurd first Outcome.reject_ne_ok

/-- The bits of some letters are below sixteen, and each is set if its letter is there. -/
theorem flagBits_ok {letters : String} {bits : Nat}
    (given : WordParts.flagBits letters = .ok bits) :
    bits < 16 ∧ ∀ flag ∈ flagPlaces,
      bits.testBit flag.2 = letters.toList.any fun letter => letter.toLower == flag.1 := by
  obtain ⟨bounded, places⟩ := foldlM_addFlag (show 0 < 16 by decide) given
  exact ⟨bounded, by simpa using places⟩

theorem registerNumber_lt (register : RegisterSpec) : WordParts.registerNumber register < 8 :=
  Nat.mod_lt _ (by omega)

/-- A number in the open places of an opcode of a word machine. -/
theorem opcode_or (width : Nat) {number : Nat} (aligned : instruction.opcode.toNat % 2 ^ width = 0)
    (small : number < 2 ^ width) :
    instruction.opcode.toNat * 256 ||| number * 256 =
      (instruction.opcode.toNat + number) * 256 := by
  rw [or_eq_add (width + 8), Nat.add_mul]
  · rw [Nat.pow_add, Nat.mul_mod_mul_right, aligned]
  · rw [Nat.pow_add]
    exact Nat.mul_lt_mul_of_pos_right small (by decide)

/-! ## Operands -/

/-- The bytes of the word of an operand, if it has one. -/
def operandWord (scope : Scope) (arch : Architecture) (operand : Operand) :
    Outcome (List UInt8) :=
  if arch.operandBytes operand.mode.kind = 2 then
    (WordParts.operandValue scope arch operand).map (ByteOrder.big.encode 2)
  else .ok []

theorem addArgument_operand {parts result : WordParts} {parameter : Parameter} {operand : Operand}
    (added : WordParts.addArgument scope arch instruction parts (parameter, .operand operand) =
      .ok result) :
    ∃ word, operandWord scope arch operand = .ok word ∧
      result = ⟨parts.word ||| (WordParts.operandBits operand *
        if parameter = .operand "a0" then 64 else 1), parts.operands ++ word⟩ := by
  simp only [WordParts.addArgument] at added
  unfold operandWord
  split at added
  · rename_i wide
    obtain ⟨value, given, done⟩ := Outcome.bind_eq_ok.mp added
    refine ⟨_, by rw [if_pos wide, given]; rfl, (Outcome.pure_eq_ok.mp done).symm⟩
  · rename_i narrow
    refine ⟨[], by rw [if_neg narrow], ?_⟩
    rw [← Except.ok.inj added, List.append_nil]

/-! ## Arguments -/

/-- Arguments that fit their parameters take some parts of an instruction to others. -/
structure Adds (scope : Scope) (arch : Architecture) (instruction : Instruction)
    (parameters : List Parameter) (arguments : List Argument) (parts result : WordParts) :
    Prop where
  fits : List.Forall₂ (Argument.Fits arch.toDatasheet) parameters arguments
  added : (parameters.zip arguments).foldlM (WordParts.addArgument scope arch instruction) parts =
    .ok result

namespace Adds

variable {parameters : List Parameter} {arguments : List Argument} {parts result : WordParts}

theorem nil (adds : Adds scope arch instruction [] arguments parts result) :
    arguments = [] ∧ result = parts :=
  ⟨List.forall₂_nil_left_iff.mp adds.fits, (Outcome.pure_eq_ok.mp adds.added).symm⟩

/-- The first of some arguments is added to the parts, and the others to what this gives. -/
theorem cons {parameter : Parameter}
    (adds : Adds scope arch instruction (parameter :: parameters) arguments parts result) :
    ∃ argument others middle, arguments = argument :: others ∧
      argument.Fits arch.toDatasheet parameter ∧
        WordParts.addArgument scope arch instruction parts (parameter, argument) = .ok middle ∧
          Adds scope arch instruction parameters others middle result := by
  obtain ⟨fits, added⟩ := adds
  obtain ⟨argument, others, fit, further, rfl⟩ := List.forall₂_cons_left_iff.mp fits
  obtain ⟨middle, first, rest⟩ := Outcome.bind_eq_ok.mp added
  exact ⟨argument, others, middle, rfl, fit, first, further, rest⟩

theorem flags (adds : Adds scope arch instruction (.flags :: parameters) arguments parts result) :
    ∃ letters bits others, arguments = .flags letters :: others ∧
      WordParts.flagBits letters = .ok bits ∧
        Adds scope arch instruction parameters others
          { parts with word := parts.word ||| bits * 256 } result := by
  obtain ⟨argument, others, middle, rfl, fit, first, rest⟩ := adds.cons
  cases argument with
  | flags letters =>
      obtain ⟨bits, given, last⟩ := Outcome.bind_eq_ok.mp first
      obtain rfl := Outcome.pure_eq_ok.mp last
      exact ⟨letters, bits, others, rfl, given, rest⟩
  | _ => exact fit.elim

theorem register
    (adds : Adds scope arch instruction (.register :: parameters) arguments parts result) :
    ∃ named others, arguments = .register named :: others ∧ Selectable arch.toDatasheet named ∧
      Adds scope arch instruction parameters others
        { parts with word := parts.word ||| WordParts.registerNumber named * 256 } result := by
  obtain ⟨argument, others, middle, rfl, fit, first, rest⟩ := adds.cons
  cases argument with
  | register named =>
      obtain rfl := Except.ok.inj first
      exact ⟨named, others, rfl, fit, rest⟩
  | _ => exact fit.elim

theorem offset
    (adds : Adds scope arch instruction (.offset :: parameters) arguments parts result) :
    ∃ text byte others, arguments = .offset text :: others ∧
      scope.offset instruction text = .ok byte ∧
        Adds scope arch instruction parameters others
          { parts with word := parts.word ||| byte.toNat } result := by
  obtain ⟨argument, others, middle, rfl, fit, first, rest⟩ := adds.cons
  cases argument with
  | offset text =>
      obtain ⟨byte, given, last⟩ := Outcome.bind_eq_ok.mp first
      obtain rfl := Outcome.pure_eq_ok.mp last
      exact ⟨text, byte, others, rfl, given, rest⟩
  | _ => exact fit.elim

theorem operand {name : String}
    (adds : Adds scope arch instruction (.operand name :: parameters) arguments parts result) :
    ∃ operand word others, arguments = .operand operand :: others ∧
      operand.Fits arch.toDatasheet ∧ operandWord scope arch operand = .ok word ∧
        Adds scope arch instruction parameters others
          ⟨parts.word ||| WordParts.operandBits operand * (if name = "a0" then 64 else 1),
            parts.operands ++ word⟩ result := by
  obtain ⟨argument, others, middle, rfl, fit, first, rest⟩ := adds.cons
  cases argument with
  | operand operand =>
      obtain ⟨word, given, rfl⟩ := addArgument_operand first
      simp only [Parameter.operand.injEq] at rest
      exact ⟨operand, word, others, rfl, fit, given, rest⟩
  | _ => exact fit.elim

end Adds

/-! ## Instructions -/

/-- The bytes of an instruction of a word machine with its arguments, in each format. -/
inductive WordEncoded (scope : Scope) (arch : Architecture) (instruction : Instruction) :
    WordFormat → List Argument → List UInt8 → Prop
  | plain : WordEncoded scope arch instruction .plain [] [instruction.opcodePlus 0]
  | flags {letters : String} {bits : Nat} : WordParts.flagBits letters = .ok bits →
      WordEncoded scope arch instruction .flags [.flags letters] [instruction.opcodePlus bits]
  | register {named : RegisterSpec} : Selectable arch.toDatasheet named →
      WordEncoded scope arch instruction .register [.register named]
        [instruction.opcodePlus (WordParts.registerNumber named)]
  | branch {text : String} {byte : UInt8} : scope.offset instruction text = .ok byte →
      WordEncoded scope arch instruction .branch [.offset text] [instruction.opcodePlus 0, byte]
  | loop {named : RegisterSpec} {text : String} {byte : UInt8} :
      Selectable arch.toDatasheet named → scope.offset instruction text = .ok byte →
        WordEncoded scope arch instruction .loop [.register named, .offset text]
          [instruction.opcodePlus (WordParts.registerNumber named), byte]
  | operand {operand : Operand} {word : List UInt8} : operand.Fits arch.toDatasheet →
      operandWord scope arch operand = .ok word →
        WordEncoded scope arch instruction .operand [.operand operand]
          (instruction.opcodePlus 0 :: UInt8.ofNat (WordParts.operandBits operand) :: word)
  | call {named : RegisterSpec} {operand : Operand} {word : List UInt8} :
      Selectable arch.toDatasheet named → operand.Fits arch.toDatasheet →
        operandWord scope arch operand = .ok word →
          WordEncoded scope arch instruction .call [.register named, .operand operand]
            (instruction.opcodePlus (WordParts.registerNumber named) ::
              UInt8.ofNat (WordParts.operandBits operand) :: word)
  | operands {source destination : Operand} {first second : List UInt8} :
      source.Fits arch.toDatasheet → destination.Fits arch.toDatasheet →
        operandWord scope arch source = .ok first →
          operandWord scope arch destination = .ok second →
            WordEncoded scope arch instruction .operands
              [.operand source, .operand destination]
              (instruction.opcodePlus (WordParts.operandBits source / 4) ::
                UInt8.ofNat (WordParts.operandBits source % 4 * 64 +
                  WordParts.operandBits destination) :: (first ++ second))

/-- An operand names a register, unless its mode goes through the program counter. -/
theorem isSome_register (sound : arch.WordSound) {operand : Operand}
    (fits : operand.Fits arch.toDatasheet) :
    operand.register.isSome = !operand.mode.followsOpcode := by
  obtain ⟨known, items, lexed, parts⟩ := fits
  rw [parts.hasRegister, (sound.forms operand.mode known items lexed).2]

theorem selectable_register {operand : Operand} (fits : operand.Fits arch.toDatasheet) :
    ∀ named ∈ operand.register, Selectable arch.toDatasheet named := by
  obtain ⟨_, items, _, parts⟩ := fits
  exact fun named given => parts.register named given

/-- The bits of an operand tell how it was written. -/
theorem operandBits_decodes (sound : arch.WordSound) {operand : Operand}
    (fits : operand.Fits arch.toDatasheet) :
    WordParts.operandBits operand < 64 ∧
      WordParts.operandBits operand % 8 = arch.operandPlace operand.register ∧
        ((operand.mode.kind.increments = true → operand.namesCounter arch = false) →
          arch.wordAddressingMode? (UInt8.ofNat (WordParts.operandBits operand)) =
            some operand.mode) :=
  sound.operands operand.mode fits.1 operand.register (isSome_register sound fits)
    (selectable_register fits)

theorem operandBits_lt (sound : arch.WordSound) {operand : Operand}
    (fits : operand.Fits arch.toDatasheet) : WordParts.operandBits operand < 64 :=
  (operandBits_decodes sound fits).1

/-- The first byte of two that were put together as a word. -/
theorem firstByte (high low : Nat) (small : low < 256) :
    UInt8.ofNat ((high * 256 + low) / 256) = UInt8.ofNat high := by
  congr 1
  omega

theorem secondByte (high low : Nat) : UInt8.ofNat (high * 256 + low) = UInt8.ofNat low := by
  apply UInt8.toNat_inj.mp
  simp only [UInt8.toNat_ofNat']
  omega

theorem byte_or (high : Nat) {low : Nat} (small : low < 256) :
    high * 256 ||| low = high * 256 + low :=
  or_eq_add 8 (Nat.mul_mod_left _ _) small

/-- The bits of two operands behind an opcode. -/
theorem operands_or {source destination : Nat} (aligned : instruction.opcode.toNat % 16 = 0)
    (smallSource : source < 64) (smallDestination : destination < 64) :
    (instruction.opcode.toNat * 256 ||| source * 64) ||| destination =
      (instruction.opcode.toNat + source / 4) * 256 + (source % 4 * 64 + destination) := by
  have sourceBits : instruction.opcode.toNat * 256 ||| source * 64 =
      instruction.opcode.toNat * 256 + source * 64 :=
    or_eq_add 12 (by omega) (by omega)
  rw [sourceBits, or_eq_add 6 (by omega) (by omega)]
  omega

/-- Encoding adds the arguments to the opcode, and keeps as many bytes as the instruction has. -/
theorem encodeWord_eq_ok {arguments : List Argument}
    (fits : List.Forall₂ (Argument.Fits arch.toDatasheet) instruction.parameters arguments)
    {bytes : List UInt8} (encoded : encodeWord scope arch instruction arguments = .ok bytes) :
    ∃ parts, Adds scope arch instruction instruction.parameters arguments
        ⟨instruction.opcode.toNat * 256, []⟩ parts ∧
      bytes = if instruction.size = 1 then [UInt8.ofNat (parts.word / 256)]
        else UInt8.ofNat (parts.word / 256) :: UInt8.ofNat parts.word :: parts.operands := by
  obtain ⟨parts, added, done⟩ := Outcome.bind_eq_ok.mp encoded
  exact ⟨parts, ⟨fits, added⟩, (Outcome.pure_eq_ok.mp done).symm⟩

/-- Encoding puts the parts of an instruction side by side. -/
theorem wordEncoded_of_encodeWord (sound : arch.WordSound)
    (known : instruction ∈ arch.instructions) {arguments : List Argument}
    (fits : List.Forall₂ (Argument.Fits arch.toDatasheet) instruction.parameters arguments)
    {bytes : List UInt8} (encoded : encodeWord scope arch instruction arguments = .ok bytes) :
    WordEncoded scope arch instruction instruction.operation.format arguments bytes := by
  obtain ⟨parameters, size⟩ := sound.formed known
  have aligned := (sound.decodes instruction known).1
  obtain ⟨parts, adds, rfl⟩ := encodeWord_eq_ok fits encoded
  rw [parameters] at adds
  rw [size]
  clear parameters size fits encoded
  generalize instruction.operation.format = format at adds aligned ⊢
  cases format with
  | plain =>
      obtain ⟨rfl, rfl⟩ := adds.nil
      simp only [WordFormat.size, if_true, Nat.mul_div_cancel _ (show 0 < 256 by decide)]
      exact .plain
  | flags =>
      obtain ⟨letters, bits, _, rfl, given, adds⟩ := adds.flags
      obtain ⟨rfl, rfl⟩ := adds.nil
      simp only [WordFormat.size, if_true, opcode_or 4 aligned (flagBits_ok given).1,
        Nat.mul_div_cancel _ (show 0 < 256 by decide)]
      exact .flags given
  | register =>
      obtain ⟨named, _, rfl, selectable, adds⟩ := adds.register
      obtain ⟨rfl, rfl⟩ := adds.nil
      simp only [WordFormat.size, if_true, opcode_or 3 aligned (registerNumber_lt named),
        Nat.mul_div_cancel _ (show 0 < 256 by decide)]
      exact .register selectable
  | branch =>
      obtain ⟨text, byte, _, rfl, given, adds⟩ := adds.offset
      obtain ⟨rfl, rfl⟩ := adds.nil
      simp only [byte_or _ byte.toNat_lt, firstByte _ _ byte.toNat_lt, secondByte,
        @UInt8.ofNat_toNat byte]
      exact .branch given
  | loop =>
      obtain ⟨named, _, rfl, selectable, adds⟩ := adds.register
      obtain ⟨text, byte, _, rfl, given, adds⟩ := adds.offset
      obtain ⟨rfl, rfl⟩ := adds.nil
      simp only [opcode_or 3 aligned (registerNumber_lt named), byte_or _ byte.toNat_lt,
        firstByte _ _ byte.toNat_lt, secondByte, @UInt8.ofNat_toNat byte]
      exact .loop selectable given
  | operand =>
      obtain ⟨operand, word, _, rfl, fit, given, adds⟩ := adds.operand
      obtain ⟨rfl, rfl⟩ := adds.nil
      have small : WordParts.operandBits operand < 256 :=
        Nat.lt_trans (operandBits_lt sound fit) (by decide)
      simp only [String.reduceEq, if_false, Nat.mul_one, byte_or _ small, firstByte _ _ small,
        secondByte, List.nil_append]
      exact .operand fit given
  | call =>
      obtain ⟨named, _, rfl, selectable, adds⟩ := adds.register
      obtain ⟨operand, word, _, rfl, fit, given, adds⟩ := adds.operand
      obtain ⟨rfl, rfl⟩ := adds.nil
      have small : WordParts.operandBits operand < 256 :=
        Nat.lt_trans (operandBits_lt sound fit) (by decide)
      simp only [opcode_or 3 aligned (registerNumber_lt named), String.reduceEq, if_false,
        Nat.mul_one, byte_or _ small, firstByte _ _ small, secondByte, List.nil_append]
      exact .call selectable fit given
  | operands =>
      obtain ⟨source, first, _, rfl, sourceFits, firstGiven, adds⟩ := adds.operand
      obtain ⟨destination, second, _, rfl, destinationFits, secondGiven, adds⟩ := adds.operand
      obtain ⟨rfl, rfl⟩ := adds.nil
      have smallSource := operandBits_lt sound sourceFits
      have smallDestination := operandBits_lt sound destinationFits
      have small : WordParts.operandBits source % 4 * 64 + WordParts.operandBits destination < 256 := by
        omega
      simp only [String.reduceEq, if_false, if_true, Nat.mul_one,
        operands_or aligned smallSource smallDestination, firstByte _ _ small, secondByte,
        List.nil_append]
      exact .operands sourceFits destinationFits firstGiven secondGiven

/-- A statement of a word machine is encoded in the format that goes with its operation. -/
theorem wordEncoded_of_written (sound : arch.WordSound) {statement : String}
    {arguments : List Argument}
    (written : writtenInstruction? arch statement = some (instruction, arguments))
    {bytes : List UInt8} (encoded : encode scope arch instruction arguments = .ok bytes) :
    WordEncoded scope arch instruction instruction.operation.format arguments bytes := by
  have known := mem_instructions_of_written written
  obtain ⟨_, _, _, _, _, parsed⟩ := writtenInstruction?_eq_some.mp written
  rw [encode_of_word sound.model] at encoded
  exact wordEncoded_of_encodeWord sound known (parseArguments_fits parsed) encoded

end Assembly

end ClassroomCpu
