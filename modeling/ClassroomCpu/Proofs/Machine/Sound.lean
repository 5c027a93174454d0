import ClassroomCpu.Proofs.Machine.Change
import ClassroomCpu.Proofs.Machine.Frame

/-!
# Sound machines

Every table of a machine has as many entries as its architecture says, and no
register holds more than its bits can.  Whatever is done to a machine keeps it
sound: a register keeps only the low bits of what is put into it.
-/

namespace ClassroomCpu.Machine

variable {arch : Architecture} {machine after : Machine arch}

/-- The tables of a machine are complete, and its registers hold no more than their bits. -/
structure Sound (machine : Machine arch) : Prop where
  memory : machine.memory.toList.length = arch.memorySize
  labels : machine.labels.toList.length = arch.memorySize
  texts : machine.texts.toList.length = arch.memorySize
  stack : machine.stack.toList.length = arch.stackSize
  registers : ∀ index, machine.register index < powerOfTwo (arch.registers.get index).width

namespace Sound

theorem of_registers
    (registers : ∀ index, machine.register index < powerOfTwo (arch.registers.get index).width) :
    machine.Sound :=
  ⟨by simp, by simp, by simp, by simp, registers⟩

theorem new (arch : Architecture) : (Machine.new arch).Sound := by
  apply of_registers
  intro index
  have zero : (Machine.new arch).register index = 0 := get_replicate 0 index
  rw [zero]
  exact powerOfTwo_pos _

/-- A change that leaves the registers alone keeps a machine sound. -/
theorem of_same (sound : machine.Sound) (same : after.registers = machine.registers) :
    after.Sound := by
  apply of_registers
  intro index
  rw [register, same]
  exact sound.registers index

theorem setRegister (sound : machine.Sound) (index : Fin arch.registers.length) (value : Int) :
    (machine.setRegister index value).Sound := by
  apply of_registers
  intro read
  rw [register_setRegister]
  split
  · rename_i same
    subst same
    have positive := powerOfTwo_pos (arch.registers.get index).width
    have low := Int.emod_nonneg value (b := powerOfTwo (arch.registers.get index).width)
      (by omega)
    have high := Int.emod_lt_of_pos value (b := powerOfTwo (arch.registers.get index).width)
      (by omega)
    rw [RegisterSpec.hold]
    omega
  · exact sound.registers read

theorem of_write (sound : machine.Sound) (write : Write machine after) : after.Sound := by
  cases write with
  | setRegister index value => exact sound.setRegister index value
  | pokeStack index value =>
      apply sound.of_same
      unfold pokeStack
      split <;> rfl
  | _ => exact sound.of_same rfl

theorem of_change (sound : machine.Sound) (change : Change machine after) : after.Sound := by
  cases change with
  | write write => exact sound.of_write write
  | setText cell text =>
      apply sound.of_same
      unfold setText
      split <;> rfl
  | setLabel cell label =>
      apply sound.of_same
      unfold setLabel
      split <;> rfl
  | _ => exact sound.of_same rfl

/-- What is done by a chain of changes keeps a machine sound. -/
theorem of_changes (sound : machine.Sound) (changes : Changes machine after) : after.Sound := by
  induction changes with
  | refl => exact sound
  | tail _ change induction => exact induction.of_change change

/-- The program counter is in memory where it wraps around with it. -/
theorem counter_lt (sound : machine.Sound) (wraps : arch.counterSize = arch.memorySize) :
    machine.counter < arch.memorySize := by
  rw [← wraps]
  exact sound.registers arch.counter

end Sound

end ClassroomCpu.Machine
