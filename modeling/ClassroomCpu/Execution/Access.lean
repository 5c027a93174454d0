import ClassroomCpu.Alu
import ClassroomCpu.Machine.Named

/-!
# Access by instructions

What instructions do to the state of a machine is put together from few steps.
Those that read or write memory count every byte as an access.
-/

namespace ClassroomCpu

/-- A computation on the state of a machine, which a fault may end. -/
abbrev Exec (arch : Architecture) := EStateM Fault (Machine arch)

namespace Exec

variable {arch : Architecture}

/-- A result that does not look at the state, or a fault. -/
def ofExcept {α : Type} : Except Fault α → Exec arch α
  | .ok result => pure result
  | .error fault => throw fault

/-! ## Bytes -/

/-- Reads a memory cell. -/
def readByte (address : Nat) : Exec arch UInt8 := do
  modify Machine.countAccess
  return (← get).peek address

/-- Writes a memory cell. -/
def writeByte (address : Nat) (value : UInt8) : Exec arch Unit :=
  modify fun machine => machine.countAccess.poke address value.toNat

/-- Reads neighbouring memory cells in ascending order. -/
def readBytes (address : Nat) : Nat → Exec arch (List UInt8)
  | 0 => pure []
  | count + 1 => do
      let byte ← readByte address
      let bytes ← readBytes (address + 1) count
      return byte :: bytes

/-- Writes neighbouring memory cells in ascending order. -/
def writeBytes (address : Nat) : List UInt8 → Exec arch Unit
  | [] => pure ()
  | byte :: bytes => do
      writeByte address byte
      writeBytes (address + 1) bytes

/-! ## Addresses and words -/

/-- Reads the address that is stored at an address. -/
def readAddress (address : Nat) : Exec arch Nat := do
  let bytes ← readBytes address arch.addressBytes
  return arch.cell (arch.byteOrder.decode bytes)

/-- Stores an address. -/
def writeAddress (address value : Nat) : Exec arch Unit :=
  writeBytes address (arch.byteOrder.encode arch.addressBytes value)

/-- Reads a word of an instruction or of a computation, high byte first. -/
def readWord (address : Nat) : Exec arch Nat := do
  let bytes ← readBytes address 2
  return ByteOrder.big.decode bytes

/-- Writes a word, high byte first. -/
def writeWord (address value : Nat) : Exec arch Unit :=
  writeBytes address (ByteOrder.big.encode 2 value)

/-! ## Registers and flags -/

/-- The program counter. -/
def counter : Exec arch Nat := do
  return (← get).counter

/-- Sets the program counter. -/
def setCounter (value : Int) : Exec arch Unit :=
  modify fun machine => machine.setCounter value

/-- Reads the byte at the program counter and moves past it. -/
def fetchByte : Exec arch UInt8 := do
  let address ← counter
  let byte ← readByte address
  setCounter (address + 1)
  return byte

/-- All condition codes. -/
def status : Exec arch Status := do
  return (← get).status

/-- Sets a condition code. -/
def setCode (code : FlagCode) (value : Bool) : Exec arch Unit :=
  modify fun machine => machine.setCode code value

/-- Sets the condition codes for the sign of a word and for a word of zero. -/
def setSignAndZero (width value : Nat) : Exec arch Unit := do
  setCode .negative (Alu.signBit width value)
  setCode .zero (Alu.truncate width value == 0)

/-- Starts or stops the machine. -/
def setRunning (value : Bool) : Exec arch Unit :=
  modify fun machine => machine.setRunning value

end Exec

end ClassroomCpu
