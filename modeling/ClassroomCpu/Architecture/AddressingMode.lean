import ClassroomCpu.BitPattern

/-!
# Addressing modes

How an operand leads to a value, and how it is written: in the form of a mode
an `a` stands for the value and an `r` for the name of a register.
-/

namespace ClassroomCpu

/-- The way from an operand to its value. -/
inductive AddressingMode.Kind
  /-- The operand is the address of the value. -/
  | direct
  /-- The operand is the address of the address of the value. -/
  | indirect
  /-- The operand is the value. -/
  | immediate
  /-- The address is the operand plus the index register. -/
  | indexedByX
  /-- The address is the operand plus the program counter. -/
  | indexedByCounter
  /-- The value is a register. -/
  | register
  /-- A register holds the address and is moved on afterwards. -/
  | postIncrement
  /-- A register is moved back and then holds the address. -/
  | preDecrement
  /-- The address is a register plus an offset word. -/
  | indexed
  /-- A register holds the address. -/
  | registerIndirect
  /-- As `postIncrement`, one indirection further. -/
  | postIncrementIndirect
  /-- As `preDecrement`, one indirection further. -/
  | preDecrementIndirect
  /-- As `indexed`, one indirection further. -/
  | indexedIndirect
  deriving DecidableEq, Repr

/-- An addressing mode of an architecture. -/
structure AddressingMode where
  /-- The bits of the opcode that select the mode. -/
  pattern : BitPattern
  /-- The way from the operand to the value. -/
  kind : AddressingMode.Kind
  /-- The written form of an operand. -/
  form : String
  deriving DecidableEq, Repr

namespace AddressingMode

/-- The mode bits with a zero in every place that the pattern leaves open. -/
def bits (mode : AddressingMode) : UInt8 :=
  mode.pattern.value

/-- Whether an opcode selects the mode. -/
def isMatch (mode : AddressingMode) (opcode : UInt8) : Bool :=
  mode.pattern.isMatch opcode

/--
Whether the mode is an abbreviation for an addressing mode through the program
counter, under which the operand follows the opcode.
-/
def followsOpcode (mode : AddressingMode) : Bool :=
  mode.kind = .immediate || mode.kind = .direct

/-- What one character of a form gives for the given value and register. -/
def renderChar (value register : List Char) (c : Char) : List Char :=
  if c = 'a' then value else if c = 'r' then register else [c]

/-- The written operand with the given value and register. -/
def render (mode : AddressingMode) (value register : String) : String :=
  String.ofList (mode.form.toList.flatMap (renderChar value.toList register.toList))

end AddressingMode

end ClassroomCpu
