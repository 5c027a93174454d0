import ClassroomCpu.Text.Numeral
import ClassroomCpu.Text.Quoted

/-!
# Faults

A fault is a defect in the description of a machine, or a name that it does
not know.  It ends the operation that meets it; it is never the answer to a
wrong program.
-/

namespace ClassroomCpu

/-- What can be wrong with a machine or with a request to it. -/
inductive Fault
  /-- A register is not between one and sixteen bits wide. -/
  | registerWidth (width : Nat)
  /-- The number of memory cells is no power of two. -/
  | memorySize (machine : String) (size : Nat)
  /-- No register has the name of the program counter. -/
  | noCounter (machine register : String)
  /-- No register has the name of the accumulator. -/
  | noAccumulator (machine register : String)
  /-- The number of stack cells of a stack machine is no power of two. -/
  | stackSize (machine : String)
  /-- No register has the name of the stack pointer. -/
  | noStackPointer (machine register : String)
  /-- The pattern of an instruction is not eight bytes long. -/
  | patternLength (machine mnemonic : String) (length : Nat)
  /-- The machine has no register of this name. -/
  | unknownRegister (machine register : String)
  /-- The machine has no flag of this name. -/
  | unknownFlag (machine flag : String)
  /-- An instruction needs a stack pointer and the machine has none. -/
  | missingStackPointer (machine : String)
  /-- An instruction names a register by a number that is too large. -/
  | registerNumber (count number : Nat)
  /-- The operand form of an addressing mode cannot be read. -/
  | operandForm (form : String)
  deriving DecidableEq, Repr

namespace Fault

/-- The wording of a fault. -/
def message : Fault → String
  | registerWidth width => "invalid register width " ++ Text.decimal width
  | memorySize machine size =>
      machine ++ ": memory size " ++ Text.decimal size ++ " is not a power of two"
  | noCounter machine register => machine ++ ": no program counter " ++ register
  | noAccumulator machine register => machine ++ ": no accumulator " ++ register
  | stackSize machine => machine ++ ": invalid stack size"
  | noStackPointer machine register => machine ++ ": no stack pointer " ++ register
  | patternLength machine mnemonic length =>
      "assertion `left == right` failed: " ++ machine ++ ": bad pattern for " ++ mnemonic
        ++ "\n  left: " ++ Text.decimal length ++ "\n right: 8"
  | unknownRegister machine register =>
      machine ++ ": no register named " ++ Text.quoted register
  | unknownFlag machine flag => machine ++ ": no flag named " ++ Text.quoted flag
  | missingStackPointer machine => machine ++ ": no stack pointer"
  | registerNumber count number =>
      "index out of bounds: the len is " ++ Text.decimal count ++ " but the index is "
        ++ Text.decimal number
  | operandForm form => "invalid addressing mode syntax " ++ Text.quoted form

end Fault

end ClassroomCpu
