import ClassroomCpu.Architecture.Operation
import ClassroomCpu.BitPattern
import ClassroomCpu.Fault
import ClassroomCpu.PowerOfTwo

/-!
# Registers and flags

The descriptions of the registers and the flags of an architecture.  The
values that they hold belong to the state of a machine.
-/

namespace ClassroomCpu

/-- The description of a register. -/
structure RegisterSpec where
  /-- The name in assembly text and for look-ups. -/
  name : String
  /-- The bits of an opcode that select the register; empty if none do. -/
  pattern : BitPattern
  /-- The number of bits. -/
  width : Nat
  /-- Whether the register holds data, which may be shown with a sign. -/
  isData : Bool
  /-- A register has a bit. -/
  width_pos : 0 < width := by decide
  /-- No register is wider than sixteen bits. -/
  width_le : width ≤ 16 := by decide
  deriving DecidableEq

namespace RegisterSpec

/-- The description of a register of the given width, if there are registers of that width. -/
def ofWidth (name : String) (pattern : BitPattern) (width : Nat) (isData : Bool) :
    Except Fault RegisterSpec :=
  if positive : 0 < width then
    if bounded : width ≤ 16 then
      .ok ⟨name, pattern, width, isData, positive, bounded⟩
    else .error (.registerWidth width)
  else .error (.registerWidth width)

/-- A register of six bits. -/
def sixBit (name : String) (pattern : BitPattern) (isData : Bool) : RegisterSpec :=
  { name, pattern, width := 6, isData }

/-- A register of eight bits. -/
def eightBit (name : String) (pattern : BitPattern) (isData : Bool) : RegisterSpec :=
  { name, pattern, width := 8, isData }

/-- A register of twelve bits. -/
def twelveBit (name : String) (pattern : BitPattern) (isData : Bool) : RegisterSpec :=
  { name, pattern, width := 12, isData }

/-- A register of sixteen bits. -/
def sixteenBit (name : String) (pattern : BitPattern) (isData : Bool) : RegisterSpec :=
  { name, pattern, width := 16, isData }

/-- The greatest value that the register can hold. -/
def mask (register : RegisterSpec) : Nat :=
  powerOfTwo register.width - 1

/-- What the register holds after a number was put into it: its low bits. -/
def hold (register : RegisterSpec) (value : Int) : Nat :=
  (value % powerOfTwo register.width).toNat

/-- A value of the register as it is shown, data with a sign if asked for. -/
def shown (register : RegisterSpec) (withSign : Bool) (value : Nat) : Int :=
  if withSign && register.isData && value.testBit (register.width - 1) then
    (value : Int) - powerOfTwo register.width
  else value

end RegisterSpec

/-- The description of a flag. -/
structure FlagSpec where
  /-- The condition code that the flag shows. -/
  code : FlagCode
  /-- The name for look-ups. -/
  name : String
  /-- The value after a reset. -/
  default : Bool
  deriving DecidableEq, Repr

end ClassroomCpu
