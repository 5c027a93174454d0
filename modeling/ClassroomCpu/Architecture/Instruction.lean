import ClassroomCpu.Architecture.Operation
import ClassroomCpu.BitPattern
import ClassroomCpu.Text.Blank
import ClassroomCpu.Text.LetterCase

/-!
# Instructions

An entry of an instruction set: the opcodes, the operation, and the form in
assembly text, which is a mnemonic followed by its parameters.
-/

namespace ClassroomCpu

/-- What stands in the place of an argument in the format of an instruction. -/
inductive Parameter
  /-- A register that the opcode selects. -/
  | register
  /-- The letters of condition codes. -/
  | flags
  /-- The distance of a branch. -/
  | offset
  /-- An addressed operand under the given name. -/
  | operand (name : String)
  deriving DecidableEq, Repr

namespace Parameter

/-- The parameter that a word of a format stands for. -/
def ofWord (word : String) : Parameter :=
  if word = "r" then .register
  else if word = "f" then .flags
  else if word = "o" then .offset
  else .operand word

/-- The word for a parameter in a format. -/
def word : Parameter → String
  | register => "r"
  | flags => "f"
  | offset => "o"
  | operand name => name

end Parameter

/-- An entry of an instruction set. -/
structure Instruction where
  /-- The number of bytes; zero if it depends on the addressing modes of the operands. -/
  size : Nat
  /-- The pattern of the first byte. -/
  pattern : BitPattern
  /-- What the instruction does. -/
  operation : Operation
  /-- The mnemonic and the parameters as words of a text. -/
  format : String
  deriving DecidableEq, Repr

namespace Instruction

/-- The first word of the format. -/
def mnemonic (instruction : Instruction) : String :=
  (Text.wordsOf instruction.format).headD ""

/-- The parameters behind the mnemonic. -/
def parameters (instruction : Instruction) : List Parameter :=
  ((Text.wordsOf instruction.format).drop 1).map Parameter.ofWord

/-- The mnemonic as it is shown. -/
def title (instruction : Instruction) : String :=
  Text.uppercase instruction.mnemonic

/-- The opcode with a zero in every place that the pattern leaves open. -/
def opcode (instruction : Instruction) : UInt8 :=
  instruction.pattern.value

/-- Whether an opcode stands for the instruction. -/
def isMatch (instruction : Instruction) (opcode : UInt8) : Bool :=
  instruction.pattern.isMatch opcode

/-- Whether the opcode selects a register for the instruction. -/
def selectsRegister (instruction : Instruction) : Bool :=
  instruction.parameters.contains .register

end Instruction

end ClassroomCpu
