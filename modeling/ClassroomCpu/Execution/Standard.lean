import ClassroomCpu.Execution.Fetched

/-!
# Accumulator and register machines

The operations of the machines that compute on a register and an operand in
memory.
-/

namespace ClassroomCpu

namespace Operation

/--
What an operation on one word of a register gives, and the bit that it moves
out if it is a shift.
-/
def onRegister? (operation : Operation) (width value : Nat) (carry : Bool) :
    Option (Nat × Option Bool) :=
  match operation with
  | .not => some (Alu.complement width value, none)
  | .neg => some ((Alu.sub width 0 value false).value, none)
  | .inc => some (Alu.truncate width (value + 1), none)
  | .dec => some (Alu.truncate width (value + (powerOfTwo width - 1)), none)
  | .shiftRight => some (value / 2, some (value.testBit 0))
  | .shiftLeft => some (Alu.truncate width (2 * value), some (Alu.signBit width value))
  | .rotateRight =>
      some (value / 2 + (if carry then powerOfTwo (width - 1) else 0), some (value.testBit 0))
  | .rotateLeft =>
      some (Alu.truncate width (2 * value + carry.toNat), some (Alu.signBit width value))
  | _ => none

end Operation

namespace Fetched

variable {arch : Architecture}

/-- Puts a result into the register and shows its sign and whether it is zero. -/
def setResult (fetched : Fetched arch) (value : Nat) : Exec arch Unit := do
  fetched.setRegister value
  Exec.setSignAndZero fetched.width value

/--
Puts the result of an addition or subtraction into the register and shows it;
its carry goes to the given condition code.
-/
def setOutcome (fetched : Fetched arch) (outcome : Alu.Outcome) (carryCode : FlagCode) :
    Exec arch Unit := do
  fetched.setResult outcome.value
  Exec.setCode carryCode outcome.carry
  Exec.setCode .overflow outcome.overflow

/-- The condition code for the borrow of a subtraction. -/
def borrowCode (arch : Architecture) : FlagCode :=
  if Machine.hasFlag arch .borrow then .borrow else .carry

/-- Stores the return address at the operand and goes on behind it. -/
def callInMemory (fetched : Fetched arch) : Exec arch Unit := do
  if fetched.kind != .immediate then
    let target ← fetched.operand.address
    let returnAddress ← Exec.counter
    Exec.writeAddress target returnAddress
    Exec.setCounter (target + arch.addressBytes)

/-- Goes on at the first of two addresses if the register is zero, and else at the second. -/
def chooseAddress (fetched : Fetched arch) : Exec arch Unit := do
  let value ← fetched.registerValue
  let address ← fetched.operand.choice (value = 0)
  Exec.setCounter address

/-- Executes an operation on one word of the register, if it is one. -/
def computeOnRegister (fetched : Fetched arch) : Exec arch Unit := do
  let value ← fetched.registerValue
  let status ← Exec.status
  match fetched.instruction.operation.onRegister? fetched.width value status.carry with
  | some (result, movedOut) =>
      fetched.setResult result
      match movedOut with
      | some bit => Exec.setCode .carry bit
      | none => pure ()
  | none => pure ()

/-- Executes an instruction of an accumulator or register machine. -/
def executeStandard (fetched : Fetched arch) : Exec arch Unit := do
  match fetched.instruction.operation with
  | .store =>
      let address ← fetched.operand.address
      let value ← fetched.registerValue
      Exec.writeByte address (UInt8.ofNat value)
  | .load =>
      let operand ← fetched.operand.value
      fetched.setResult operand
  | .add =>
      let value ← fetched.registerValue
      let operand ← fetched.operand.value
      fetched.setOutcome (Alu.add fetched.width value operand false) .carry
  | .sub =>
      let value ← fetched.registerValue
      let operand ← fetched.operand.value
      fetched.setOutcome (Alu.sub fetched.width value operand false) (borrowCode arch)
  | .or =>
      let value ← fetched.registerValue
      let operand ← fetched.operand.value
      fetched.setResult (value ||| operand)
  | .and =>
      let value ← fetched.registerValue
      let operand ← fetched.operand.value
      fetched.setResult (value &&& operand)
  | .jump test =>
      let status ← Exec.status
      fetched.jumpIf (test.holds status)
  | .call => fetched.callInMemory
  | .choose => fetched.chooseAddress
  | .halt => Exec.setRunning false
  | _ => fetched.computeOnRegister

end Fetched

end ClassroomCpu
