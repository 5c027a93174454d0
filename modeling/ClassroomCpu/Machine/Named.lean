import ClassroomCpu.Machine.Basic

/-!
# Access by name

Registers and flags by their names, whatever the case of the letters.  An
empty name means no register, which reads zero and cannot be written; any other
name that the machine does not know is a fault.
-/

namespace ClassroomCpu.Machine

variable {arch : Architecture}

/-- The position of a named register. -/
def findRegister (arch : Architecture) (name : String) :
    Except Fault (Fin arch.registers.length) :=
  match arch.registerIndex? name with
  | some index => .ok index
  | none => .error (.unknownRegister arch.name name)

/-- The position of a named flag. -/
def findFlag (arch : Architecture) (name : String) : Except Fault (Fin arch.flags.length) :=
  match arch.flagIndex? name with
  | some index => .ok index
  | none => .error (.unknownFlag arch.name name)

/-- The value of a named register. -/
def registerNamed (machine : Machine arch) (name : String) : Except Fault Nat :=
  if name.isEmpty then .ok 0 else (findRegister arch name).map machine.register

/-- Puts a number into a named register. -/
def setRegisterNamed (machine : Machine arch) (name : String) (value : Int) :
    Except Fault (Machine arch) :=
  if name.isEmpty then .ok machine
  else (findRegister arch name).map fun index => machine.setRegister index value

/-- The number of bits of a named register; eight if the name is empty. -/
def registerBits (arch : Architecture) (name : String) : Except Fault Nat :=
  if name.isEmpty then .ok 8
  else (findRegister arch name).map fun index => (arch.registers.get index).width

/-- The value of a named flag. -/
def flagNamed (machine : Machine arch) (name : String) : Except Fault Bool :=
  (findFlag arch name).map machine.flag

/-- Sets a named flag. -/
def setFlagNamed (machine : Machine arch) (name : String) (value : Bool) :
    Except Fault (Machine arch) :=
  (findFlag arch name).map fun index => machine.setFlag index value

end ClassroomCpu.Machine
