import ClassroomCpu.Text.LetterCase
import ClassroomCpu.Text.Numeral

/-!
# Events

Every change of the visible state of a machine is an event.  Its topic is the
name under which listeners ask for it.
-/

namespace ClassroomCpu

/-- A change of the state of a machine. -/
inductive Event
  /-- A memory cell was written. -/
  | memory (address : Nat) (value : UInt8)
  /-- A register was written. -/
  | register (name : String) (value : Nat)
  /-- A flag was written. -/
  | flag (name : String) (value : Bool)
  /-- A cell of the stack was written. -/
  | stack (index : Nat) (value : UInt8)
  /-- The instruction text of a memory cell changed. -/
  | instructionText (address : Nat) (text : String)
  /-- The label of a memory cell changed. -/
  | label (address : Nat) (label : String)
  /-- The machine was started or stopped. -/
  | running (value : Bool)
  /-- The number of executed instructions changed. -/
  | instructionCount (count : Nat)
  /-- The number of memory accesses changed. -/
  | accessCount (count : Nat)
  deriving DecidableEq, Repr

namespace Event

/-- The name under which listeners ask for the event. -/
def topic : Event → String
  | memory address _ => "MEM." ++ Text.decimal address
  | register name _ => "REG." ++ Text.uppercase name
  | flag name _ => "FLAG." ++ Text.uppercase name
  | stack index _ => "STACK." ++ Text.decimal index
  | instructionText address _ => "INS.STR." ++ Text.decimal address
  | label address _ => "LABEL." ++ Text.decimal address
  | running _ => "RUNNING"
  | instructionCount _ => "INS.COUNT"
  | accessCount _ => "ACC.COUNT"

end Event

end ClassroomCpu
