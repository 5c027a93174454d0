import ClassroomCpu.Machine.Listing

/-!
# Reset

A reset brings everything but memory and labels into the state in which a
program starts, and tells the listeners about every cell that it set.
-/

namespace ClassroomCpu.Machine

variable {arch : Architecture}

/-- Sets all registers to zero. -/
def resetRegisters (machine : Machine arch) : Machine arch :=
  (List.finRange arch.registers.length).foldl
    (fun machine index => machine.setRegister index 0) machine

/-- Gives all flags their values after a reset. -/
def resetFlags (machine : Machine arch) : Machine arch :=
  (List.finRange arch.flags.length).foldl
    (fun machine index => machine.setFlag index (arch.flags.get index).default) machine

/-- Empties the stack apart from memory. -/
def resetStack (machine : Machine arch) : Machine arch :=
  (List.range arch.stackSize).foldl (fun machine index => machine.pokeStack index 0) machine

/-- Resets registers, flags, stack and counts, stops the machine and refreshes the texts. -/
def reset (machine : Machine arch) : Machine arch :=
  (machine.resetRegisters.resetFlags.resetStack.clearCounts.setRunning false).refreshTexts

end ClassroomCpu.Machine
