import ClassroomCpu.Catalog
import ClassroomCpu.Execution.Step
import ClassroomCpu.Proofs.Execution.Fetch
import ClassroomCpu.Proofs.Machine.Held

/-!
# The stack of Volta

Sixty-four cells apart from memory, numbered around a circle: a push moves the
stack pointer on and writes the cell to which it points then, and taking a
number moves the pointer back and leaves the cell as it is.
-/

namespace ClassroomCpu

open Catalog (volta)

namespace Machine

variable (machine : Machine volta)

/-- The stack pointer of Volta, its second register. -/
def stackPointer : Nat :=
  machine.register ⟨1, by decide⟩

/-- The cell of the stack that a number means. -/
theorem stackCell?_volta (index : Nat) :
    stackCell? volta index = some ⟨index % 64, Nat.mod_lt index (by decide)⟩ := by
  have inside : 0 < volta.stackSize := by decide
  rw [stackCell?, dif_pos inside]
  congr 2
  exact Nat.and_two_pow_sub_one_eq_mod index 6

theorem peekStack_volta (index : Nat) :
    machine.peekStack index = machine.stack.get ⟨index % 64, Nat.mod_lt index (by decide)⟩ := by
  rw [peekStack, stackCell?_volta]

theorem peekStack_congr {index other : Nat} (same : index % 64 = other % 64) :
    machine.peekStack index = machine.peekStack other := by
  simp only [peekStack_volta, same]

theorem peekStack_of_stack {machine other : Machine volta} (same : other.stack = machine.stack)
    (index : Nat) : other.peekStack index = machine.peekStack index := by
  simp only [peekStack_volta, same]

theorem peekStack_pokeStack (written read : Nat) (value : Int) :
    (machine.pokeStack written value).peekStack read =
      if read % 64 = written % 64 then UInt8.ofInt value else machine.peekStack read := by
  rw [peekStack_volta, peekStack_volta, pokeStack, stackCell?_volta]
  change (machine.stack.set _ _).get _ = _
  rw [get_set]
  simp only [Fin.ext_iff, @eq_comm _ (read % 64)]

@[simp] theorem memory_pokeStack (index : Nat) (value : Int) :
    (machine.pokeStack index value).memory = machine.memory := by
  rw [pokeStack, stackCell?_volta]
  rfl

@[simp] theorem stackPointer_pokeStack (index : Nat) (value : Int) :
    (machine.pokeStack index value).stackPointer = machine.stackPointer := by
  rw [pokeStack, stackCell?_volta]
  rfl

/-! ## Pushing and taking -/

/-- The machine once a number was pushed. -/
def pushed (value : Nat) : Machine volta :=
  let moved := machine.setRegister ⟨1, by decide⟩ (machine.stackPointer + 1)
  moved.pokeStack moved.stackPointer value

/-- The machine once a number was taken. -/
def popped : Machine volta :=
  machine.setRegister ⟨1, by decide⟩ (machine.stackPointer - 1)

@[simp] theorem stackPointer_countAccess :
    machine.countAccess.stackPointer = machine.stackPointer := rfl

@[simp] theorem stackPointer_countInstruction :
    machine.countInstruction.stackPointer = machine.stackPointer := rfl

@[simp] theorem peekStack_countAccess (index : Nat) :
    machine.countAccess.peekStack index = machine.peekStack index := rfl

@[simp] theorem peekStack_countInstruction (index : Nat) :
    machine.countInstruction.peekStack index = machine.peekStack index := rfl

theorem stackPointer_setRegister (value : Int) :
    (machine.setRegister ⟨1, by decide⟩ value).stackPointer = (value % 64).toNat := by
  rw [stackPointer, register_setRegister, if_pos rfl]
  rfl

@[simp] theorem stackPointer_setCounter (value : Int) :
    (machine.setCounter value).stackPointer = machine.stackPointer :=
  machine.register_setCounter (by decide) value

@[simp] theorem stackPointer_pushed (value : Nat) :
    (machine.pushed value).stackPointer = (machine.stackPointer + 1) % 64 := by
  rw [pushed, stackPointer_pokeStack, stackPointer_setRegister]
  omega

@[simp] theorem stackPointer_popped :
    machine.popped.stackPointer = (machine.stackPointer + 63) % 64 := by
  rw [popped, stackPointer_setRegister]
  omega

theorem counter_setStackPointer (value : Int) :
    (machine.setRegister ⟨1, by decide⟩ value).counter = machine.counter :=
  machine.counter_setRegister (by decide) value

@[simp] theorem counter_pushed (value : Nat) : (machine.pushed value).counter = machine.counter := by
  rw [pushed, counter_pokeStack, counter_setStackPointer]

@[simp] theorem counter_popped : machine.popped.counter = machine.counter :=
  machine.counter_setStackPointer _

@[simp] theorem memory_pushed (value : Nat) : (machine.pushed value).memory = machine.memory := by
  rw [pushed, memory_pokeStack, memory_setRegister]

@[simp] theorem memory_popped : machine.popped.memory = machine.memory := rfl

@[simp] theorem peekStack_popped (index : Nat) :
    machine.popped.peekStack index = machine.peekStack index := rfl

theorem peekStack_pushed (value read : Nat) :
    (machine.pushed value).peekStack read =
      if read % 64 = (machine.stackPointer + 1) % 64 then UInt8.ofNat value
      else machine.peekStack read := by
  have number : UInt8.ofInt value = UInt8.ofNat value := by
    have low := ByteOrder.toNat_ofInt value
    apply UInt8.toNat.inj
    rw [UInt8.toNat_ofNat']
    omega
  have pointer : (machine.setRegister ⟨1, by decide⟩ (machine.stackPointer + 1)).stackPointer =
      (machine.stackPointer + 1) % 64 := by
    rw [stackPointer_setRegister]
    omega
  rw [pushed, peekStack_pokeStack, pointer, Nat.mod_mod, number]
  rfl

/-! ## Fetching -/

@[simp] theorem stackPointer_pastFetch (instruction : Instruction) :
    (machine.pastFetch instruction).stackPointer = machine.stackPointer := by
  change (machine.pastFetch instruction).register? (some ⟨1, _⟩) = _
  exact machine.register?_pastFetch (by decide) instruction

@[simp] theorem peekStack_pastFetch (instruction : Instruction) (index : Nat) :
    (machine.pastFetch instruction).peekStack index = machine.peekStack index :=
  peekStack_of_stack (machine.stack_pastFetch instruction) index

theorem counter_pastFetch_volta (instruction : Instruction) {size : Nat}
    (sized : instruction.size = size) (fixed : size ≠ 0) :
    (machine.pastFetch instruction).counter = (machine.counter + size) % 256 := by
  have bytes : volta.instructionBytes instruction
      [volta.addressingKind (machine.peek machine.counter)] = size := by
    rw [Datasheet.instructionBytes, sized, if_pos fixed]
  rw [counter_pastFetch _ (by decide), bytes]
  rfl

end Machine

namespace Exec

variable (machine : Machine volta)

theorem registerAt?_stackPointerName :
    volta.registerAt? volta.stackPointerName = some ⟨1, by decide⟩ := by
  decide

theorem push_volta (value : Nat) : push value machine = .ok () (machine.pushed value) := by
  unfold push
  rw [registerAt?_stackPointerName]
  rfl

theorem pop_volta :
    pop machine = .ok (machine.peekStack machine.stackPointer).toNat machine.popped := by
  unfold pop
  rw [registerAt?_stackPointerName]
  rfl

/-- A step ends where the execution of what is fetched ends, and counts an instruction. -/
theorem step_volta {machine after : Machine volta} {instruction : Instruction}
    (known : volta.instruction? (machine.peek machine.counter) = some instruction)
    (ends : (machine.fetched instruction).executeStack (machine.pastFetch instruction) =
      .ok () after) :
    step machine = .ok () after.countInstruction := by
  have fetches : (byteInstruction : Exec volta Unit) machine = .ok () after :=
    (bind_of_ok (fetch_of_some known)).trans ends
  exact bind_of_ok fetches

end Exec

end ClassroomCpu
