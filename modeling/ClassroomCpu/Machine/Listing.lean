import ClassroomCpu.Alu
import ClassroomCpu.Machine.Basic

/-!
# Instruction texts

The instruction at an address as text: the mnemonic in upper case and the
arguments behind it, and the number of bytes that it takes.  Looking at memory
for this is no access.  The texts of all cells are refreshed by one sweep from
the start of memory, which goes from each instruction to the next.
-/

namespace ClassroomCpu

/-- An instruction in memory as it is shown. -/
structure InstructionText where
  /-- The mnemonic and the arguments; empty if the opcode stands for no instruction. -/
  text : String
  /-- The number of bytes; one if the opcode stands for no instruction. -/
  size : Nat
  deriving DecidableEq, Repr

namespace Machine

variable {arch : Architecture}

/-! ## Byte machines -/

/-- Operands are shown by their lowest sixty-four bits, as numbers below this one. -/
def shownBound : Nat :=
  powerOfTwo 64

/-- The arguments of an instruction of a byte machine whose operands start at `cursor`. -/
def byteArguments (machine : Machine arch) (opcode : UInt8) (cursor : Nat) :
    List Parameter → List String
  | [] => []
  | .register :: parameters =>
      arch.selectedName opcode :: byteArguments machine opcode cursor parameters
  | _ :: parameters =>
      let width := arch.operandBytes (arch.addressingKind opcode)
      let value := Text.decimal (machine.peekNumber arch.byteOrder width cursor % shownBound)
      let argument :=
        match arch.addressingMode? opcode with
        | some mode => mode.render value ""
        | none => value
      argument :: byteArguments machine opcode (cursor + width) parameters

/-! ## Word machines -/

/-- The bits that select the addressing mode and the register of an operand. -/
def operandBits (opcode second : UInt8) (name : String) : UInt8 :=
  let word := opcode.toNat * 256 + second.toNat
  if name = "a0" then UInt8.ofNat (word / 64 % 64)
  else if name = "a1" then UInt8.ofNat (word % 64)
  else second

/-- The name of the register with the number that the low three bits give. -/
def wordRegisterName (arch : Architecture) (bits : UInt8) : String :=
  match arch.registers[bits.toNat % 8]? with
  | some register => register.name
  | none => ""

/-- The letters of the condition codes that the low four bits of an opcode select. -/
def flagLetters (opcode : UInt8) : String :=
  String.ofList ([('N', 3), ('Z', 2), ('V', 1), ('C', 0)].filterMap fun letter =>
    if opcode.toNat.testBit letter.2 then some letter.1 else none)

/-- The distance of a branch as it is shown: backwards only for the counting loop. -/
def offsetText (instruction : Instruction) (second : UInt8) : String :=
  if instruction.mnemonic = "sob" then Text.decimal second.toNat
  else Text.signedDecimal (Alu.signed 8 second.toNat)

/-- An operand of a word machine whose word, if it has one, is at `cursor`. -/
def wordOperand (machine : Machine arch) (mode : AddressingMode) (bits : UInt8)
    (cursor : Nat) : String :=
  let value :=
    if arch.operandBytes mode.kind = 2 then machine.peekNumber .big 2 cursor else 0
  let shown :=
    match mode.kind with
    | .indexed | .indexedIndirect => Text.signedDecimal (Alu.signed 16 value)
    | _ => Text.decimal value
  mode.render shown (wordRegisterName arch bits)

/-- The arguments of an instruction of a word machine whose operand words start at `cursor`. -/
def wordArguments (machine : Machine arch) (instruction : Instruction)
    (opcode second : UInt8) (cursor : Nat) : List Parameter → List String
  | [] => []
  | .register :: parameters =>
      wordRegisterName arch opcode
        :: wordArguments machine instruction opcode second cursor parameters
  | .flags :: parameters =>
      flagLetters opcode :: wordArguments machine instruction opcode second cursor parameters
  | .offset :: parameters =>
      offsetText instruction second
        :: wordArguments machine instruction opcode second cursor parameters
  | .operand name :: parameters =>
      let bits := operandBits opcode second name
      match arch.wordAddressingMode? bits with
      | none => "" :: wordArguments machine instruction opcode second cursor parameters
      | some mode =>
          let next := if arch.operandBytes mode.kind = 2 then cursor + 2 else cursor
          machine.wordOperand mode bits cursor
            :: wordArguments machine instruction opcode second next parameters

/-- The kinds of addressing of the operands of an instruction of a word machine. -/
def wordKinds (arch : Architecture) (opcode second : UInt8) (parameters : List Parameter) :
    List AddressingMode.Kind :=
  parameters.filterMap fun parameter =>
    match parameter with
    | .operand name =>
        if name.toList.head? = some 'a' then
          (arch.wordAddressingMode? (operandBits opcode second name)).map (·.kind)
        else none
    | _ => none

/-! ## The text at an address -/

/-- The mnemonic with those arguments that are not empty behind it. -/
def joinArguments (title separator : String) (arguments : List String) : String :=
  match arguments.filter fun argument => !argument.isEmpty with
  | [] => title
  | first :: others => title ++ " " ++ separator.intercalate (first :: others)

/-- The instruction that starts at an address. -/
def instructionText (machine : Machine arch) (address : Nat) : InstructionText :=
  let opcode := machine.peek address
  match arch.instruction? opcode with
  | none => ⟨"", 1⟩
  | some instruction =>
      let parameters := instruction.parameters
      match arch.model with
      | .word =>
          let second := if instruction.size = 1 then 0 else machine.peek (address + 1)
          ⟨joinArguments instruction.title ", "
              (machine.wordArguments instruction opcode second (address + 2) parameters),
            arch.instructionBytes instruction (wordKinds arch opcode second parameters)⟩
      | .standard | .stack =>
          ⟨joinArguments instruction.title " "
              (machine.byteArguments opcode (address + 1) parameters),
            arch.instructionBytes instruction [arch.addressingKind opcode]⟩

/-! ## Refreshing all texts -/

/-- Empties the texts of `count` cells from an address on, up to the end of memory. -/
def clearTexts (machine : Machine arch) (address : Nat) : Nat → Machine arch
  | 0 => machine
  | count + 1 =>
      if inside : address < arch.memorySize then
        (machine.setText ⟨address, inside⟩ "").clearTexts (address + 1) count
      else machine

/-- Refreshes the texts from an address on, at which an instruction starts. -/
def refreshTextsFrom (machine : Machine arch) (address : Nat) : Machine arch :=
  if inside : address < arch.memorySize then
    let shown := machine.instructionText address
    ((machine.setText ⟨address, inside⟩ shown.text).clearTexts (address + 1)
      (shown.size - 1)).refreshTextsFrom (address + max shown.size 1)
  else machine
  termination_by arch.memorySize - address

/-- Refreshes the texts of all cells. -/
def refreshTexts (machine : Machine arch) : Machine arch :=
  machine.refreshTextsFrom 0

end Machine

end ClassroomCpu
