import ClassroomCpu.Execution.Step
import ClassroomCpu.Proofs.Assembly.WrittenInstruction
import ClassroomCpu.Proofs.Machine.Frame

/-!
# What a written instruction means

A written instruction says by itself what a step of it does.  The operands are
the numbers for which their texts stand, and the registers are those that are
named.  Nothing of this reads the bytes of the instruction: they are passed
over, which counts as many accesses and moves the program counter as far.
-/

namespace ClassroomCpu

open Assembly

/-! ## Numbers, registers and condition codes -/

namespace Assembly

/-- The number of an operand; zero if it is written without one. -/
def Operand.number (operand : Operand) (labels : LabelTable) : Int :=
  (operand.value.bind (operandNumber? labels)).getD 0

/-- The place of a register among the registers, the first one if there is none. -/
def registerPlace (arch : Architecture) (register : Option RegisterSpec) : Nat :=
  ((register.bind fun named => arch.registerAt? named.name).map Fin.val).getD 0

/-- The condition codes of some letters. -/
def writtenCodes (letters : String) : List FlagCode :=
  [('n', FlagCode.negative), ('z', .zero), ('v', .overflow), ('c', .carry)].filterMap fun code =>
    if letters.toList.any fun letter => letter.toLower == code.1 then some code.2 else none

/--
Where a branch goes on, from the address of the next instruction: at a label, or
at a distance that is written as a number and kept in a byte.
-/
def writtenTarget (labels : LabelTable) (instruction : Instruction) (text : String)
    (next : Nat) : Int :=
  match resolve? labels text with
  | none => next
  | some ⟨target, true⟩ => target
  | some ⟨distance, false⟩ =>
      if instruction.operation = .loop then next - distance % 256
      else next + Alu.signed 8 (distance % 256).toNat

end Assembly

/-! ## Byte machines -/

namespace Exec

variable {arch : Architecture}

/-- Counts accesses to bytes that are not looked at. -/
def passOver (count : Nat) : Exec arch Unit :=
  modify fun machine => machine.countAccesses count

/-- Passes over some bytes at the program counter. -/
def passBytes (count : Nat) : Exec arch Unit := do
  let address ← counter
  passOver count
  setCounter (address + count)

end Exec

namespace OperandAccess

/--
The address of the cell that an operand with the given number means.  It is the
number itself, the address that is stored at the number, or the number plus a
register; an immediate operand is its own cell.
-/
def writtenAddress (arch : Architecture) (kind : AddressingMode.Kind) (own : Nat)
    (number : Int) : Exec arch Nat := do
  match kind with
  | .immediate => return arch.cell own
  | .indirect =>
      Exec.passOver arch.addressBytes
      Exec.readAddress (arch.wrap number)
  | .indexedByX =>
      Exec.passOver arch.addressBytes
      let index ← Exec.ofExcept ((← get).registerNamed indexRegisterName)
      return arch.wrap (number + index)
  | .indexedByCounter =>
      Exec.passOver arch.addressBytes
      let counter ← Exec.counter
      return arch.wrap (number + counter)
  | _ =>
      Exec.passOver arch.addressBytes
      return arch.wrap number

/-- The value of an operand with the given number: a byte of the number, or that of its cell. -/
def writtenValue (arch : Architecture) (kind : AddressingMode.Kind) (own : Nat)
    (number : Int) : Exec arch Nat := do
  match kind with
  | .immediate =>
      Exec.passOver 1
      return (number % 256).toNat
  | _ =>
      let address ← writtenAddress arch kind own number
      let byte ← Exec.readByte address
      return byte.toNat

/-- Access to operands with the given numbers, of which only a choice has a second one. -/
def written (arch : Architecture) (kind : AddressingMode.Kind) (own : Nat)
    (number second : Int) : OperandAccess arch where
  address := writtenAddress arch kind own number
  value := writtenValue arch kind own number
  choice first := do
    Exec.passOver arch.addressBytes
    return arch.wrap (if first then number else second)

end OperandAccess

/-- A written instruction of a byte machine whose operands, if there are any, start at `own`. -/
def Fetched.written (arch : Architecture) (labels : LabelTable) (instruction : Instruction)
    (arguments : List Argument) (own : Nat) : Fetched arch :=
  let operands := writtenOperands arguments
  let kind := ((operands.map (·.mode.kind)).headD .direct)
  let numbers := operands.map (·.number labels)
  { instruction
    register :=
      arch.registerAt? (((namedRegister? arguments).map (·.name)).getD arch.accumulatorName)
    kind
    operand := .written arch kind own (numbers.getD 0 0) (numbers.getD 1 0) }

namespace WordOperand

/--
Finds an operand with the given number through the register with the given
place: at the number itself, at the number plus the register, or, one
indirection further, at the address that is stored there.  An immediate operand
is its own word, and an operand without a word has no number.
-/
def writtenLocation (arch : Architecture) (kind : AddressingMode.Kind) (number : Int)
    (place : Nat) : Exec arch Location := do
  match kind with
  | .immediate =>
      let own ← Exec.counter
      Exec.setCounter (own + 2)
      return .memory (arch.cell own)
  | .direct =>
      let own ← Exec.counter
      Exec.setCounter (own + 2)
      Exec.passOver 2
      return .memory (arch.wrap number)
  | .indexed =>
      Exec.passBytes 2
      let base ← Exec.readRegister place
      return .memory (arch.wrap (number + base))
  | .indexedIndirect =>
      Exec.passBytes 2
      let base ← Exec.readRegister place
      Exec.follow (arch.wrap (number + base))
  | _ => Exec.locate kind place

/-- Reads an operand with the given number: a word of the number, or the word where it is. -/
def writtenLoad (kind : AddressingMode.Kind) (number : Int) (location : Location) :
    Exec arch Nat := do
  match kind with
  | .immediate =>
      Exec.passOver 2
      return (number % 65536).toNat
  | _ => Exec.load location

/-- Access to a written operand; without one, to the first register. -/
def written (arch : Architecture) (labels : LabelTable) : Option Operand → WordOperand arch
  | some operand =>
      let place := registerPlace arch operand.register
      { kind := operand.mode.kind
        locate := writtenLocation arch operand.mode.kind (operand.number labels) place
        load := writtenLoad operand.mode.kind (operand.number labels) }
  | none => { kind := .register, locate := pure (.register 0), load := Exec.load }

end WordOperand

/-- A written instruction of a word machine. -/
def FetchedWord.written (arch : Architecture) (labels : LabelTable) (instruction : Instruction)
    (arguments : List Argument) : FetchedWord arch :=
  let operands := writtenOperands arguments
  { instruction
    number := registerPlace arch (namedRegister? arguments)
    codes := writtenCodes ((arguments.findSome? Argument.letters?).getD "")
    operand := .written arch labels operands[0]?
    source := .written arch labels operands[0]?
    destination := .written arch labels operands[1]?
    target := writtenTarget labels instruction ((arguments.findSome? Argument.target?).getD "") }

namespace Exec

/-- What a written instruction of a word machine does. -/
def writtenWordInstruction (arch : Architecture) (labels : LabelTable)
    (instruction : Instruction) (arguments : List Argument) : Exec arch Unit := do
  passBytes 1
  if instruction.size ≠ 1 then
    passBytes 1
  (FetchedWord.written arch labels instruction arguments).execute

end Exec

end ClassroomCpu
