import ClassroomCpu.Execution.Access

/-!
# Word machines

The machines of sixteen bits whose operands are addressed through registers.
Finding an operand may move registers, the program counter among them: an
operand behind the opcode is one that the program counter passes over.
-/

namespace ClassroomCpu

/-- Where the operand of a word machine is. -/
inductive Location
  /-- In the register with this number. -/
  | register (number : Nat)
  /-- In the two memory cells from this address on. -/
  | memory (address : Nat)
  deriving DecidableEq, Repr

/-- How an instruction of a word machine gets at one of its operands. -/
structure WordOperand (arch : Architecture) where
  kind : AddressingMode.Kind
  /-- Finds the operand, which may move registers. -/
  locate : Exec arch Location
  /-- Reads the operand where it was found. -/
  load : Location → Exec arch Nat

/-- An instruction of a word machine that is about to be executed. -/
structure FetchedWord (arch : Architecture) where
  instruction : Instruction
  /-- The number of the register that the opcode selects. -/
  number : Nat
  /-- The condition codes that the opcode selects. -/
  codes : List FlagCode
  /-- The only operand. -/
  operand : WordOperand arch
  /-- The first of two operands. -/
  source : WordOperand arch
  /-- The second of two operands. -/
  destination : WordOperand arch
  /-- Where a branch goes on, from the address of the next instruction. -/
  target : Nat → Int

/-- What an operation on one word leaves behind. -/
structure WordResult where
  value : Nat
  overflow : Bool
  carry : Bool
  deriving DecidableEq, Repr

namespace WordResult

/-- The result of an addition or a subtraction. -/
def ofOutcome (outcome : Alu.Outcome) : WordResult :=
  ⟨outcome.value, outcome.overflow, outcome.carry⟩

/-- The result of a shift that moves a bit out: it overflows if the sign differs from that bit. -/
def ofShift (value : Nat) (movedOut : Bool) : WordResult :=
  ⟨value, Alu.signBit 16 value != movedOut, movedOut⟩

end WordResult

namespace Operation

/-- What an operation on one word gives. -/
def onWord? (operation : Operation) (value : Nat) (carry : Bool) : Option WordResult :=
  match operation with
  | .not => some ⟨Alu.complement 16 value, false, true⟩
  | .inc => some (.ofOutcome (Alu.add 16 value 1 false))
  | .dec => some (.ofOutcome (Alu.sub 16 value 1 false))
  | .neg =>
      some ⟨(Alu.sub 16 0 value false).value, decide (value = powerOfTwo 15), decide (value ≠ 0)⟩
  | .test => some ⟨value, false, false⟩
  | .rotateRight =>
      some (.ofShift (value / 2 + (if carry then powerOfTwo 15 else 0)) (value.testBit 0))
  | .rotateLeft =>
      some (.ofShift (Alu.truncate 16 (2 * value + carry.toNat)) (Alu.signBit 16 value))
  | .halve =>
      some (.ofShift (value / 2 + (if Alu.signBit 16 value then powerOfTwo 15 else 0))
        (value.testBit 0))
  | .double => some (.ofShift (Alu.truncate 16 (2 * value)) (Alu.signBit 16 value))
  | .addCarry => some (.ofOutcome (Alu.add 16 value 0 carry))
  | .subCarry => some (.ofOutcome (Alu.sub 16 value 0 carry))
  | _ => none

end Operation

namespace FetchedWord

/-- The number of the register that the low three bits of a byte select. -/
def registerNumber (bits : UInt8) : Nat :=
  bits.toNat % 8

/-- The bits of the first of two operands. -/
def sourceBits (opcode second : UInt8) : UInt8 :=
  UInt8.ofNat ((opcode.toNat * 256 + second.toNat) / 64 % 64)

/-- The bits of the second of two operands. -/
def destinationBits (opcode second : UInt8) : UInt8 :=
  UInt8.ofNat ((opcode.toNat * 256 + second.toNat) % 64)

/-- The condition codes that the low four bits of an opcode select. -/
def selectedCodes (opcode : UInt8) : List FlagCode :=
  [(FlagCode.negative, 3), (.zero, 2), (.overflow, 1), (.carry, 0)].filterMap fun code =>
    if opcode.toNat.testBit code.2 then some code.1 else none

/-- Where a branch goes on that stands in front of `next`: backwards only for the counting loop. -/
def branchTarget (instruction : Instruction) (second : UInt8) (next : Nat) : Int :=
  if instruction.operation = .loop then (next : Int) - second.toNat
  else next + Alu.signed 8 second.toNat

end FetchedWord

namespace Exec

variable {arch : Architecture}

/-- The register with a number. -/
def numberedRegister (number : Nat) : Exec arch (Fin arch.registers.length) :=
  if there : number < arch.registers.length then pure ⟨number, there⟩
  else throw (.registerNumber arch.registers.length number)

/-- The value of the register with a number. -/
def readRegister (number : Nat) : Exec arch Nat := do
  let index ← numberedRegister number
  return (← get).register index

/-- Puts a number into the register with a number. -/
def writeRegister (number : Nat) (value : Int) : Exec arch Unit := do
  let index ← numberedRegister number
  modify fun machine => machine.setRegister index value

/-- Reads the word at the program counter and moves past it. -/
def nextWord : Exec arch Nat := do
  let address ← counter
  let word ← readWord address
  setCounter (address + 2)
  return word

/-- The cell to which a word in memory points. -/
def follow (pointer : Nat) : Exec arch Location := do
  let address ← readWord pointer
  return .memory (arch.cell address)

/-- The kind of addressing of the operand with the given bits; a register if no mode fits. -/
def operandKind (arch : Architecture) (bits : UInt8) : AddressingMode.Kind :=
  match arch.wordAddressingMode? bits with
  | some mode => mode.kind
  | none => .register

/-- Finds an operand of the given kind through the register with the given number. -/
def locate (kind : AddressingMode.Kind) (number : Nat) : Exec arch Location := do
  match kind with
  | .postIncrement | .immediate =>
      let address ← readRegister number
      writeRegister number (address + 2)
      return .memory (arch.cell address)
  | .preDecrement =>
      let address : Int := (← readRegister number) - 2
      writeRegister number address
      return .memory (arch.wrap address)
  | .indexed =>
      let offset ← nextWord
      let base ← readRegister number
      return .memory (arch.cell (base + offset))
  | .registerIndirect =>
      let address ← readRegister number
      return .memory (arch.cell address)
  | .postIncrementIndirect | .direct =>
      let pointer ← readRegister number
      writeRegister number (pointer + 2)
      follow (arch.cell pointer)
  | .preDecrementIndirect =>
      let pointer : Int := (← readRegister number) - 2
      writeRegister number pointer
      follow (arch.wrap pointer)
  | .indexedIndirect =>
      let offset ← nextWord
      let base ← readRegister number
      follow (arch.cell (base + offset))
  | _ => return .register number

/-- Reads the word at a location. -/
def load : Location → Exec arch Nat
  | .register number => readRegister number
  | .memory address => readWord address

/-- Writes a word to a location. -/
def store (value : Nat) : Location → Exec arch Unit
  | .register number => writeRegister number (Alu.truncate 16 value)
  | .memory address => writeWord address (Alu.truncate 16 value)

/-- The register that is the stack pointer. -/
def wordStackPointer : Exec arch (Fin arch.registers.length) :=
  match arch.registers.findFinIdx? fun register => register.name = arch.stackPointerName with
  | some index => pure index
  | none => throw (.missingStackPointer arch.name)

/-- Puts a word onto the stack in memory. -/
def pushWord (value : Nat) : Exec arch Unit := do
  let pointer ← wordStackPointer
  let address : Int := (← get).register pointer - 2
  modify fun machine => machine.setRegister pointer address
  writeWord (arch.wrap address) value

/-- Takes a word from the stack in memory. -/
def popWord : Exec arch Nat := do
  let pointer ← wordStackPointer
  let address := (← get).register pointer
  let value ← readWord (arch.cell address)
  modify fun machine => machine.setRegister pointer (address + 2)
  return value

/-- Shows a result in all four condition codes. -/
def setWordCodes (value : Nat) (overflow carry : Bool) : Exec arch Unit := do
  setSignAndZero 16 value
  setCode .overflow overflow
  setCode .carry carry

/-- Shows a result that cannot overflow, and leaves the carry as it is. -/
def setLogicCodes (value : Nat) : Exec arch Unit := do
  setSignAndZero 16 value
  setCode .overflow false

end Exec

/-- The operand with the given bits, whose word, if it has one, is in memory. -/
def WordOperand.ofBits (arch : Architecture) (bits : UInt8) : WordOperand arch where
  kind := Exec.operandKind arch bits
  locate := Exec.locate (Exec.operandKind arch bits) (FetchedWord.registerNumber bits)
  load := Exec.load

namespace FetchedWord

variable {arch : Architecture}

/-- The instruction that two bytes give; the second one is zero if there is only one. -/
def ofBytes (arch : Architecture) (instruction : Instruction) (opcode second : UInt8) :
    FetchedWord arch where
  instruction
  number := registerNumber opcode
  codes := selectedCodes opcode
  operand := .ofBits arch second
  source := .ofBits arch (sourceBits opcode second)
  destination := .ofBits arch (destinationBits opcode second)
  target := branchTarget instruction second

/-- Goes on at an operand in memory. -/
def jump (fetched : FetchedWord arch) : Exec arch Unit := do
  if fetched.operand.kind != .register then
    match ← fetched.operand.locate with
    | .memory target => Exec.setCounter target
    | .register _ => pure ()

/--
Goes on at an operand in memory; the return address takes the place of the
selected register, whose value is put onto the stack.
-/
def call (fetched : FetchedWord arch) : Exec arch Unit := do
  if fetched.operand.kind != .register then
    match ← fetched.operand.locate with
    | .memory target =>
        let saved ← Exec.readRegister fetched.number
        Exec.pushWord saved
        let returnAddress ← Exec.counter
        Exec.writeRegister fetched.number returnAddress
        Exec.setCounter target
    | .register _ => pure ()

/-- Goes on where the selected register says, and takes its old value from the stack. -/
def ret (fetched : FetchedWord arch) : Exec arch Unit := do
  let address ← Exec.readRegister fetched.number
  Exec.setCounter address
  let saved ← Exec.popWord
  Exec.writeRegister fetched.number saved

/-- Counts the selected register down and goes backwards until it is zero. -/
def loop (fetched : FetchedWord arch) : Exec arch Unit := do
  let value ← Exec.readRegister fetched.number
  Exec.writeRegister fetched.number ((value : Int) - 1)
  let remaining ← Exec.readRegister fetched.number
  if remaining ≠ 0 then
    let next ← Exec.counter
    Exec.setCounter (fetched.target next)

/-- Goes on at a place relative to the next instruction if a condition holds. -/
def branch (fetched : FetchedWord arch) (condition : Condition) : Exec arch Unit := do
  let status ← Exec.status
  if condition.holds status then
    let next ← Exec.counter
    Exec.setCounter (fetched.target next)

/-- Executes an operation on one word, if it is one. -/
def computeOnWord (fetched : FetchedWord arch) : Exec arch Unit := do
  let location ← fetched.operand.locate
  let value ← fetched.operand.load location
  let status ← Exec.status
  match fetched.instruction.operation.onWord? value status.carry with
  | some result =>
      if fetched.instruction.operation ≠ .test then
        Exec.store result.value location
      Exec.setWordCodes result.value result.overflow result.carry
  | none => pure ()

/-- Executes an operation on two words, if it is one. -/
def computeOnWords (fetched : FetchedWord arch) : Exec arch Unit := do
  let place ← fetched.source.locate
  let source ← fetched.source.load place
  let destination ← fetched.destination.locate
  match fetched.instruction.operation with
  | .move =>
      Exec.store source destination
      Exec.setLogicCodes source
  | .add =>
      let value ← fetched.destination.load destination
      let outcome := Alu.add 16 value source false
      Exec.store outcome.value destination
      Exec.setWordCodes outcome.value outcome.overflow outcome.carry
  | .sub =>
      let value ← fetched.destination.load destination
      let outcome := Alu.sub 16 value source false
      Exec.store outcome.value destination
      Exec.setWordCodes outcome.value outcome.overflow outcome.carry
  | .compare =>
      let value ← fetched.destination.load destination
      let outcome := Alu.sub 16 source value false
      Exec.setWordCodes outcome.value outcome.overflow outcome.carry
  | .and =>
      let value ← fetched.destination.load destination
      Exec.store (value &&& source) destination
      Exec.setLogicCodes (value &&& source)
  | .or =>
      let value ← fetched.destination.load destination
      Exec.store (value ||| source) destination
      Exec.setLogicCodes (value ||| source)
  | _ => pure ()

/-- Executes an instruction of a word machine. -/
def execute (fetched : FetchedWord arch) : Exec arch Unit := do
  match fetched.instruction.operation with
  | .clearFlags => fetched.codes.forM fun code => Exec.setCode code false
  | .setFlags => fetched.codes.forM fun code => Exec.setCode code true
  | .branch condition => fetched.branch condition
  | .loop => fetched.loop
  | .jump .always => fetched.jump
  | .call => fetched.call
  | .ret => fetched.ret
  | .clear =>
      let location ← fetched.operand.locate
      Exec.store 0 location
      Exec.setWordCodes 0 false false
  | .not | .inc | .dec | .neg | .test | .rotateRight | .rotateLeft | .halve | .double
  | .addCarry | .subCarry => fetched.computeOnWord
  | .move | .add | .sub | .compare | .and | .or => fetched.computeOnWords
  | .halt => Exec.setRunning false
  | _ => pure ()

end FetchedWord

end ClassroomCpu
