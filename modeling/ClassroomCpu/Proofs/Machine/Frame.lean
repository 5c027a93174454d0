import ClassroomCpu.Machine.Named
import ClassroomCpu.Proofs.Cells

/-!
# What a change leaves alone

Every operation on a machine changes one part of it.  The program counter and
memory are followed through all of them.
-/

namespace ClassroomCpu

/-- The number of values of the program counter. -/
def Architecture.counterSize (arch : Architecture) : Nat :=
  powerOfTwo (arch.registers.get arch.counter).width

namespace Machine

variable {arch : Architecture} (machine : Machine arch)

/-! ## The program counter -/

@[simp] theorem counter_countAccess : machine.countAccess.counter = machine.counter := rfl

@[simp] theorem counter_countInstruction :
    machine.countInstruction.counter = machine.counter := rfl

@[simp] theorem counter_setRunning (value : Bool) :
    (machine.setRunning value).counter = machine.counter := rfl

@[simp] theorem counter_poke (address : Nat) (value : Int) :
    (machine.poke address value).counter = machine.counter := rfl

@[simp] theorem counter_pokeStack (index : Nat) (value : Int) :
    (machine.pokeStack index value).counter = machine.counter := by
  unfold pokeStack
  split <;> rfl

@[simp] theorem counter_setCode (code : FlagCode) (value : Bool) :
    (machine.setCode code value).counter = machine.counter := by
  unfold setCode
  split <;> rfl

/-- What a register holds after a write to one. -/
theorem register_setRegister (written read : Fin arch.registers.length) (value : Int) :
    (machine.setRegister written value).register read =
      if written = read then (arch.registers.get written).hold value
      else machine.register read :=
  get_set _ _ _ _

theorem counter_setRegister {index : Fin arch.registers.length} (other : index ≠ arch.counter)
    (value : Int) : (machine.setRegister index value).counter = machine.counter := by
  simp [counter, register_setRegister, other]

theorem counter_setRegister? {index : Option (Fin arch.registers.length)}
    (other : index ≠ some arch.counter) (value : Int) :
    (machine.setRegister? value index).counter = machine.counter := by
  cases index with
  | none => rfl
  | some index => exact counter_setRegister machine (by simpa using other) value

/-- The program counter wraps around. -/
theorem counter_setCounter (value : Int) :
    (machine.setCounter value).counter = (value % arch.counterSize).toNat := by
  simp only [setCounter, counter, register_setRegister, if_true]
  rfl

theorem counter_setCounter_natCast (value : Nat) :
    (machine.setCounter value).counter = value % arch.counterSize := by
  rw [counter_setCounter]
  omega

theorem register_setCounter {index : Fin arch.registers.length} (other : index ≠ arch.counter)
    (value : Int) : (machine.setCounter value).register index = machine.register index := by
  rw [setCounter, register_setRegister, if_neg other.symm]

theorem register?_setCounter {index : Option (Fin arch.registers.length)}
    (other : index ≠ some arch.counter) (value : Int) :
    (machine.setCounter value).register? index = machine.register? index := by
  cases index with
  | none => rfl
  | some index => exact register_setCounter machine (by simpa using other) value

/-! ## Memory -/

@[simp] theorem peek_countAccess (address : Nat) :
    machine.countAccess.peek address = machine.peek address := rfl

@[simp] theorem memory_countAccess : machine.countAccess.memory = machine.memory := rfl

@[simp] theorem memory_setRegister (index : Fin arch.registers.length) (value : Int) :
    (machine.setRegister index value).memory = machine.memory := rfl

@[simp] theorem memory_setCounter (value : Int) :
    (machine.setCounter value).memory = machine.memory := rfl

@[simp] theorem memory_setRegister? (index : Option (Fin arch.registers.length)) (value : Int) :
    (machine.setRegister? value index).memory = machine.memory := by
  cases index <;> rfl

/-- Neighbouring cells depend on memory alone. -/
theorem peekBytes_congr {machine other : Machine arch} (same : other.memory = machine.memory)
    (address count : Nat) : other.peekBytes address count = machine.peekBytes address count := by
  induction count generalizing address with
  | zero => rfl
  | succ count induction => rw [peekBytes, peekBytes, induction, peek, peek, same]

/-! ## Accesses -/

/-- The machine once it has counted some accesses. -/
def countAccesses (machine : Machine arch) : Nat → Machine arch
  | 0 => machine
  | count + 1 => machine.countAccess.countAccesses count

@[simp] theorem memory_countAccesses (count : Nat) :
    (machine.countAccesses count).memory = machine.memory := by
  induction count generalizing machine with
  | zero => rfl
  | succ count induction => rw [countAccesses, induction, memory_countAccess]

@[simp] theorem register_countAccesses (count : Nat) (index : Fin arch.registers.length) :
    (machine.countAccesses count).register index = machine.register index := by
  induction count generalizing machine with
  | zero => rfl
  | succ count induction =>
      rw [countAccesses, induction]
      rfl

@[simp] theorem counter_countAccesses (count : Nat) :
    (machine.countAccesses count).counter = machine.counter :=
  register_countAccesses machine count arch.counter

end Machine

end ClassroomCpu
