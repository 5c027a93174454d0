import ClassroomCpu.Execution.Access

/-!
# Fetched instructions of a byte machine

A byte machine reads an opcode and passes over the operand bytes behind it
before it executes the instruction.  What the opcode selects, and the way from
the operand to a memory cell, are the same for all its instructions.
-/

namespace ClassroomCpu

/-- How an instruction of a byte machine gets at its operands. -/
structure OperandAccess (arch : Architecture) where
  /-- Finds the cell that the operand means. -/
  address : Exec arch Nat
  /-- Reads the value of the operand. -/
  value : Exec arch Nat
  /-- Reads the first or else the second of two addresses. -/
  choice : Bool → Exec arch Nat

/-- An instruction of a byte machine that is about to be executed. -/
structure Fetched (arch : Architecture) where
  instruction : Instruction
  /-- The register that the instruction works on, if there is one. -/
  register : Option (Fin arch.registers.length)
  /-- The kind of addressing of the operand. -/
  kind : AddressingMode.Kind
  operand : OperandAccess arch

/-- The name of the register that indexed operands are relative to. -/
def indexRegisterName : String :=
  "X"

/-- The number of bytes of the instruction that starts with an opcode, on a byte machine. -/
def Architecture.opcodeBytes (arch : Architecture) (opcode : UInt8) : Nat :=
  match arch.instruction? opcode with
  | some instruction => arch.instructionBytes instruction [arch.addressingKind opcode]
  | none => 1

namespace OperandAccess

variable {arch : Architecture}

/-- The address of the cell that an operand means; an immediate operand is its own cell. -/
def effectiveAddress (arch : Architecture) (kind : AddressingMode.Kind)
    (operandAddress : Nat) : Exec arch Nat := do
  match kind with
  | .immediate => return arch.cell operandAddress
  | .indirect =>
      let pointer ← Exec.readAddress operandAddress
      Exec.readAddress pointer
  | .indexedByX =>
      let base ← Exec.readAddress operandAddress
      let index ← Exec.ofExcept ((← get).registerNamed indexRegisterName)
      return arch.cell (base + index)
  | .indexedByCounter =>
      let base ← Exec.readAddress operandAddress
      let counter ← Exec.counter
      return arch.cell (base + counter)
  | _ => Exec.readAddress operandAddress

/-- The value of the cell that an operand means. -/
def cellValue (arch : Architecture) (kind : AddressingMode.Kind)
    (operandAddress : Nat) : Exec arch Nat := do
  let address ← effectiveAddress arch kind operandAddress
  let byte ← Exec.readByte address
  return byte.toNat

/-- Access to operands of the given kind whose bytes lie in memory from an address on. -/
def inMemory (arch : Architecture) (kind : AddressingMode.Kind) (operandAddress : Nat) :
    OperandAccess arch where
  address := effectiveAddress arch kind operandAddress
  value := cellValue arch kind operandAddress
  choice first :=
    Exec.readAddress (if first then operandAddress else operandAddress + arch.addressBytes)

end OperandAccess

namespace Exec

variable {arch : Architecture}

/-- Moves past the operand bytes of an instruction of the given size, behind its opcode. -/
def passOperand (size : Nat) : Exec arch Unit := do
  let address ← counter
  if size ≠ 1 then
    setCounter ((address : Int) + size - 1)

/-- Reads an opcode and passes over its operand; nothing if the opcode stands for no instruction. -/
def fetch : Exec arch (Option (Fetched arch)) := do
  let opcode ← fetchByte
  match arch.instruction? opcode with
  | none => return none
  | some instruction =>
      let operandAddress ← counter
      passOperand (arch.instructionBytes instruction [arch.addressingKind opcode])
      return some
        { instruction
          register := arch.workingRegister? instruction opcode
          kind := arch.addressingKind opcode
          operand := .inMemory arch (arch.addressingKind opcode) operandAddress }

end Exec

namespace Fetched

variable {arch : Architecture}

/-- The number of bits of the register that the instruction works on. -/
def width (fetched : Fetched arch) : Nat :=
  match fetched.register with
  | some index => (arch.registers.get index).width
  | none => 8

/-- The value of the register that the instruction works on. -/
def registerValue (fetched : Fetched arch) : Exec arch Nat := do
  return (← get).register? fetched.register

/-- Sets the register that the instruction works on. -/
def setRegister (fetched : Fetched arch) (value : Nat) : Exec arch Unit :=
  modify fun machine => machine.setRegister? value fetched.register

/--
Goes on at the operand if a condition holds.  Otherwise the operand is not
read, and nothing ever goes on at an immediate operand.
-/
def jumpIf (fetched : Fetched arch) (condition : Bool) : Exec arch Unit := do
  if condition && fetched.kind != .immediate then
    let address ← fetched.operand.address
    Exec.setCounter address

end Fetched

end ClassroomCpu
