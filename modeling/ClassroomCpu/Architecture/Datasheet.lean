import ClassroomCpu.Architecture.AddressingMode
import ClassroomCpu.Architecture.Instruction
import ClassroomCpu.Architecture.Register
import ClassroomCpu.ByteOrder

/-!
# Datasheets

A datasheet describes a machine completely: its cells, registers and flags,
its instruction set with the addressing modes, and the model by which it
executes.  Everything that can be told without a state is told here: which
instruction an opcode stands for, what it selects, and how many bytes it
takes.  Whether the entries of a datasheet fit together is checked elsewhere.
-/

namespace ClassroomCpu

/-- How a machine fetches and executes instructions. -/
inductive ExecutionModel
  /-- Opcodes of one byte, registers, and operands in memory. -/
  | standard
  /-- Opcodes of one byte that compute on a stack apart from memory. -/
  | stack
  /-- Opcodes of up to two bytes and words of sixteen bits. -/
  | word
  deriving DecidableEq, Repr

/-- The description of a machine, as it is written down. -/
structure Datasheet where
  /-- The name for people. -/
  name : String
  /-- The identifier in memory images. -/
  identifier : String
  /-- The ending of the names of memory image files. -/
  fileExtension : String
  /-- The number of memory cells. -/
  memorySize : Nat
  flags : List FlagSpec
  registers : List RegisterSpec
  instructions : List Instruction
  addressingModes : List AddressingMode
  /-- The order of the bytes of addresses and of words of data. -/
  byteOrder : ByteOrder
  /-- The name of the program counter. -/
  counterName : String
  /-- The register of instructions that name none; empty if there is no such register. -/
  accumulatorName : String
  /-- The number of bytes of an immediate operand. -/
  immediateBytes : Nat
  /-- The name of the stack pointer; empty if there is none. -/
  stackPointerName : String
  /-- The number of cells of a stack apart from memory. -/
  stackSize : Nat
  model : ExecutionModel

namespace Datasheet

/-- The number of bytes of an address. -/
def addressBytes (sheet : Datasheet) : Nat :=
  if 256 < sheet.memorySize then 2 else 1

/-- The instruction with the given mnemonic. -/
def instructionNamed? (sheet : Datasheet) (mnemonic : String) : Option Instruction :=
  sheet.instructions.find? fun instruction => Text.sameLetters instruction.mnemonic mnemonic

/-- The register with the given name. -/
def registerNamed? (sheet : Datasheet) (name : String) : Option RegisterSpec :=
  sheet.registers.find? fun register => Text.sameLetters register.name name

/-- The position of the register with the given name. -/
def registerIndex? (sheet : Datasheet) (name : String) : Option (Fin sheet.registers.length) :=
  sheet.registers.findFinIdx? fun register => Text.sameLetters register.name name

/-- The position of the flag with the given name. -/
def flagIndex? (sheet : Datasheet) (name : String) : Option (Fin sheet.flags.length) :=
  sheet.flags.findFinIdx? fun flag => Text.sameLetters flag.name name

/-- The position of the flag with the given code. -/
def flagWithCode? (sheet : Datasheet) (code : FlagCode) : Option (Fin sheet.flags.length) :=
  sheet.flags.findFinIdx? fun flag => flag.code = code

/-- The register that the operands of a statement name: one that opcodes can select. -/
def selectableRegister? (sheet : Datasheet) (name : String) : Option RegisterSpec :=
  sheet.registers.find? fun register =>
    !register.pattern.text.isEmpty && Text.sameLetters register.name name

/-- The instruction that an opcode stands for. -/
def instruction? (sheet : Datasheet) (opcode : UInt8) : Option Instruction :=
  sheet.instructions.find? fun instruction => instruction.isMatch opcode

/-- The addressing mode that an opcode selects. -/
def addressingMode? (sheet : Datasheet) (opcode : UInt8) : Option AddressingMode :=
  sheet.addressingModes.find? fun mode => mode.isMatch opcode

/-- The name of the register that an opcode selects; empty if it selects none. -/
def selectedName (sheet : Datasheet) (opcode : UInt8) : String :=
  match sheet.registers.find? fun register => register.pattern.isMatch opcode with
  | some register => register.name
  | none => ""

/-- The kind of addressing that an opcode selects; direct if it selects none. -/
def addressingKind (sheet : Datasheet) (opcode : UInt8) : AddressingMode.Kind :=
  match sheet.addressingMode? opcode with
  | some mode => mode.kind
  | none => .direct

/--
The addressing mode of an operand of a word machine, whose bits are three for
the mode and three for the register.  Modes through the program counter are
known by their abbreviations, if there are any.
-/
def wordAddressingMode? (sheet : Datasheet) (bits : UInt8) : Option AddressingMode :=
  let throughCounter := bits.toNat % 8 == 7
  (sheet.addressingModes.find? fun mode =>
      mode.isMatch bits && mode.followsOpcode == throughCounter).or
    (sheet.addressingModes.find? fun mode => mode.isMatch bits && !mode.followsOpcode)

/-- The number of bytes of an operand behind its opcode. -/
def operandBytes (sheet : Datasheet) (kind : AddressingMode.Kind) : Nat :=
  match sheet.model with
  | .word =>
      match kind with
      | .immediate | .direct | .indexed | .indexedIndirect => 2
      | _ => 0
  | .standard | .stack =>
      match kind with
      | .immediate => sheet.immediateBytes
      | _ => sheet.addressBytes

theorem operandBytes_of_word {sheet : Datasheet} (wordMachine : sheet.model = .word)
    (kind : AddressingMode.Kind) :
    sheet.operandBytes kind =
      match kind with
      | .immediate | .direct | .indexed | .indexedIndirect => 2
      | _ => 0 := by
  unfold operandBytes
  rw [wordMachine]

theorem operandBytes_of_byte {sheet : Datasheet} (byteMachine : sheet.model ≠ .word)
    (kind : AddressingMode.Kind) :
    sheet.operandBytes kind =
      match kind with
      | .immediate => sheet.immediateBytes
      | _ => sheet.addressBytes := by
  unfold operandBytes
  cases model : sheet.model with
  | word => contradiction
  | standard => rfl
  | stack => rfl

/--
The number of bytes of an instruction whose operands have the given kinds of
addressing.  A size that is not fixed adds the bytes of the operands to the
one or two bytes of the opcode; a byte machine has one operand.
-/
def instructionBytes (sheet : Datasheet) (instruction : Instruction)
    (kinds : List AddressingMode.Kind) : Nat :=
  if instruction.size ≠ 0 then instruction.size
  else
    match sheet.model with
    | .word => kinds.foldl (fun total kind => total + sheet.operandBytes kind) 2
    | .standard | .stack => 1 + sheet.operandBytes (kinds.headD .direct)

end Datasheet

end ClassroomCpu
