import ClassroomCpu.Execution.Fetched

/-!
# Stack machines

The operations of the machines that compute on a stack apart from memory.  The
stack pointer points to the topmost cell and wraps around.
-/

namespace ClassroomCpu

namespace Operation

/-- What an operation on the two topmost cells gives; the right one is the topmost. -/
def onTwoCells? (operation : Operation) (left right : Nat) : Option Nat :=
  match operation with
  | .add => some (Alu.add 8 left right false).value
  | .sub => some (Alu.sub 8 left right false).value
  | .and => some (left &&& right)
  | .or => some (left ||| right)
  | _ => none

/-- What an operation on the topmost cell gives. -/
def onCell? (operation : Operation) (value : Nat) : Option Nat :=
  match operation with
  | .clear => some 0
  | .not => some (Alu.complement 8 value)
  | .neg => some (Alu.sub 8 0 value false).value
  | .inc => some (Alu.truncate 8 (value + 1))
  | .dec => some (Alu.truncate 8 (value + 255))
  | .halve => some (value / 2 + value / 128 * 128)
  | .double => some (Alu.truncate 8 (2 * value))
  | .rotateRight => some (value / 2 + value % 2 * 128)
  | .rotateLeft => some (Alu.truncate 8 (2 * value) + value / 128)
  | _ => none

end Operation

namespace Exec

variable {arch : Architecture}

/-- Puts a number onto the stack. -/
def push (value : Nat) : Exec arch Unit := do
  let pointer := arch.registerAt? arch.stackPointerName
  modify fun machine => machine.setRegister? (machine.register? pointer + 1) pointer
  modify fun machine => machine.pokeStack (machine.register? pointer) value

/-- Takes the topmost number from the stack. -/
def pop : Exec arch Nat := do
  let pointer := arch.registerAt? arch.stackPointerName
  let top := (← get).register? pointer
  let value := (← get).peekStack top
  modify fun machine => machine.setRegister? ((top : Int) - 1) pointer
  return value.toNat

/-- Passes over the instruction at the program counter. -/
def skipInstruction : Exec arch Unit := do
  let address ← counter
  let opcode ← readByte address
  setCounter (address + arch.opcodeBytes opcode)

end Exec

namespace Fetched

variable {arch : Architecture}

/-- Puts the return address onto the stack and goes on at the operand. -/
def callOnStack (fetched : Fetched arch) : Exec arch Unit := do
  if fetched.kind != .immediate then
    let target ← fetched.operand.address
    let returnAddress ← Exec.counter
    Exec.push returnAddress
    Exec.setCounter target

/-- Executes an instruction of a stack machine. -/
def executeStack (fetched : Fetched arch) : Exec arch Unit := do
  let operation := fetched.instruction.operation
  match operation with
  | .add | .sub | .and | .or =>
      let right ← Exec.pop
      let left ← Exec.pop
      match operation.onTwoCells? left right with
      | some value => Exec.push value
      | none => pure ()
  | .clear | .not | .neg | .inc | .dec | .halve | .double | .rotateRight | .rotateLeft =>
      let top ← Exec.pop
      match operation.onCell? top with
      | some value => Exec.push value
      | none => pure ()
  | .skip test =>
      let top ← Exec.pop
      if test.holds (Alu.signed 8 top) then
        Exec.skipInstruction
  | .push =>
      let operand ← fetched.operand.value
      Exec.push operand
  | .pop =>
      let address ← fetched.operand.address
      let value ← Exec.pop
      Exec.writeByte address (UInt8.ofNat value)
  | .jump .always => fetched.jumpIf true
  | .call => fetched.callOnStack
  | .ret =>
      let address ← Exec.pop
      Exec.setCounter address
  | .halt => Exec.setRunning false
  | _ => pure ()

end Fetched

end ClassroomCpu
