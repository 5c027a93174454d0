import ClassroomCpu.Execution.Stack
import ClassroomCpu.Execution.Word
import ClassroomCpu.Machine.Listing

/-!
# Control flow

Which instructions go on elsewhere than behind themselves: jumps, calls,
returns, skips and branches that are taken, and instructions of a word machine
that compute on its program counter.
-/

namespace ClassroomCpu

variable {arch : Architecture}

namespace Machine

/-- The number that an instruction takes from the stack first. -/
def stackTop (machine : Machine arch) : Nat :=
  (machine.peekStack (machine.register? (arch.registerAt? arch.stackPointerName))).toNat

/-- The value of the register with a number; zero if there is none. -/
def numbered (machine : Machine arch) (number : Nat) : Nat :=
  if there : number < arch.registers.length then machine.register ⟨number, there⟩ else 0

end Machine

/-- Whether an operation of a word machine stores its result where its last operand is. -/
def Operation.storesWord : Operation → Bool
  | .clear | .not | .inc | .dec | .neg | .rotateRight | .rotateLeft | .halve | .double
  | .addCarry | .subCarry | .move | .add | .sub | .and | .or => true
  | _ => false

namespace Instruction

/--
Whether an instruction of a byte machine goes on elsewhere than behind itself.
Jumps and calls with an immediate operand never do.
-/
def leavesByte (instruction : Instruction) (kind : AddressingMode.Kind)
    (machine : Machine arch) : Bool :=
  match instruction.operation with
  | .jump test => test.holds machine.status && kind != .immediate
  | .call => kind != .immediate
  | .skip test => test.holds (Alu.signed 8 machine.stackTop)
  | .ret | .choose => true
  | _ => false

/--
Whether an instruction of a word machine goes on elsewhere than behind itself.
Jumps and calls whose operand is a register never do; the counting loop does as
long as its register, the program counter apart, is not counted down to zero.
-/
def leavesWord (instruction : Instruction) (opcode second : UInt8)
    (machine : Machine arch) : Bool :=
  match instruction.operation with
  | .jump .always | .call => Exec.operandKind arch second != .register
  | .branch condition => condition.holds machine.status
  | .loop =>
      FetchedWord.registerNumber opcode == arch.counter
        || ((machine.numbered (FetchedWord.registerNumber opcode) : Int) - 1) % powerOfTwo 16 != 0
  | .ret => true
  | _ => false

/-- The bits of the operands of an instruction of a word machine. -/
def operandBits (instruction : Instruction) (opcode second : UInt8) : List UInt8 :=
  instruction.parameters.filterMap fun parameter =>
    match parameter with
    | .operand name => some (Machine.operandBits opcode second name)
    | _ => none

/-- Whether an operand is found by moving the program counter back. -/
def movesBack (arch : Architecture) (bits : UInt8) : Bool :=
  FetchedWord.registerNumber bits == arch.counter
    && (Exec.operandKind arch bits == .preDecrement
      || Exec.operandKind arch bits == .preDecrementIndirect)

/-- Whether an operand is the program counter itself. -/
def isCounter (arch : Architecture) (bits : UInt8) : Bool :=
  FetchedWord.registerNumber bits == arch.counter && Exec.operandKind arch bits == .register

/-- Whether an instruction of a word machine moves its program counter back, or computes on it. -/
def setsCounter (instruction : Instruction) (arch : Architecture) (opcode second : UInt8) : Bool :=
  (instruction.operandBits opcode second).any (movesBack arch)
    || instruction.operation.storesWord
      && (instruction.operandBits opcode second).getLast?.any (isCounter arch)

end Instruction

namespace Machine

/-- The second byte of the instruction at the program counter of a word machine. -/
def secondByte (machine : Machine arch) (instruction : Instruction) : UInt8 :=
  if instruction.size = 1 then 0 else machine.peek (machine.counter + 1)

/-- Whether the next step goes on behind the instruction at the program counter. -/
def fallsThrough (machine : Machine arch) : Bool :=
  let opcode := machine.peek machine.counter
  match arch.instruction? opcode with
  | none => true
  | some instruction =>
      match arch.model with
      | .word =>
          let second := machine.secondByte instruction
          !instruction.leavesWord opcode second machine
            && !instruction.setsCounter arch opcode second
      | .standard | .stack => !instruction.leavesByte (arch.addressingKind opcode) machine

/-- Whether the instruction at the program counter is a skip that is taken. -/
def skips (machine : Machine arch) : Bool :=
  match arch.instruction? (machine.peek machine.counter) with
  | some instruction =>
      match instruction.operation with
      | .skip test => test.holds (Alu.signed 8 machine.stackTop)
      | _ => false
  | none => false

end Machine

end ClassroomCpu
