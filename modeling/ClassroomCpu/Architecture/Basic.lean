import ClassroomCpu.Architecture.Datasheet

/-!
# Architectures

An architecture is a datasheet whose entries fit together: memory wraps around
at a power of two, and the registers that the datasheet names are there.  The
check of a datasheet names the first entry that is wrong.
-/

namespace ClassroomCpu

namespace Datasheet

/-- What is wrong with the name of the accumulator. -/
def accumulatorFault? (sheet : Datasheet) : Option Fault :=
  if sheet.accumulatorName.isEmpty || (sheet.registerNamed? sheet.accumulatorName).isSome then
    none
  else some (.noAccumulator sheet.name sheet.accumulatorName)

/-- What is wrong with the stack of a stack machine. -/
def stackFault? (sheet : Datasheet) : Option Fault :=
  if sheet.model ≠ .stack then none
  else if powerOfTwo sheet.stackSize.log2 ≠ sheet.stackSize then some (.stackSize sheet.name)
  else if (sheet.registerNamed? sheet.stackPointerName).isNone then
    some (.noStackPointer sheet.name sheet.stackPointerName)
  else none

/-- What is wrong with the pattern of the first instruction with a wrong pattern. -/
def patternFault? (sheet : Datasheet) : Option Fault :=
  (sheet.instructions.find? fun instruction => instruction.pattern.text.utf8ByteSize ≠ 8).map
    fun instruction =>
      .patternLength sheet.name instruction.mnemonic instruction.pattern.text.utf8ByteSize

/-- The first thing that is wrong beyond the memory size and the program counter. -/
def laterFault? (sheet : Datasheet) : Option Fault :=
  (sheet.accumulatorFault?.or sheet.stackFault?).or sheet.patternFault?

end Datasheet

/-- A datasheet whose entries fit together. -/
structure Architecture extends Datasheet where
  /-- The position of the program counter among the registers. -/
  counter : Fin registers.length
  /-- The number of memory cells is a power of two. -/
  memorySize_eq : powerOfTwo memorySize.log2 = memorySize
  /-- The program counter is the register that the datasheet names. -/
  counter_eq : toDatasheet.registerIndex? counterName = some counter
  /-- Nothing else is wrong. -/
  sound : toDatasheet.laterFault? = none

/-- The architecture that a datasheet describes, or the first thing that is wrong with it. -/
def Datasheet.check (sheet : Datasheet) : Except Fault Architecture :=
  if size : powerOfTwo sheet.memorySize.log2 = sheet.memorySize then
    match named : sheet.registerIndex? sheet.counterName with
    | none => .error (.noCounter sheet.name sheet.counterName)
    | some counter =>
        match later : sheet.laterFault? with
        | some fault => .error fault
        | none =>
            .ok { toDatasheet := sheet, counter, memorySize_eq := size, counter_eq := named,
                  sound := later }
  else .error (.memorySize sheet.name sheet.memorySize)

namespace Architecture

/-- There is a memory cell. -/
theorem memorySize_pos (arch : Architecture) : 0 < arch.memorySize := by
  rw [← arch.memorySize_eq]
  exact powerOfTwo_pos _

/-- The memory cell that an address means: addresses wrap around. -/
def cell (arch : Architecture) (address : Nat) : Fin arch.memorySize :=
  ⟨address % arch.memorySize, Nat.mod_lt _ arch.memorySize_pos⟩

@[simp] theorem cell_val (arch : Architecture) (cell : Fin arch.memorySize) :
    arch.cell cell = cell :=
  Fin.ext (Nat.mod_eq_of_lt cell.isLt)

theorem val_cell_zero (arch : Architecture) : (arch.cell 0 : Nat) = 0 :=
  Nat.zero_mod _

/-- The memory cell that a number means as an address. -/
def wrap (arch : Architecture) (address : Int) : Fin arch.memorySize :=
  arch.cell (address % arch.memorySize).toNat

/-- Wrapping around keeps the remainder. -/
theorem val_wrap (arch : Architecture) (address : Int) :
    ((arch.wrap address : Nat) : Int) = address % arch.memorySize := by
  have positive := arch.memorySize_pos
  have low := Int.emod_nonneg address (b := arch.memorySize) (by omega)
  have high := Int.emod_lt_of_pos address (b := arch.memorySize) (by omega)
  simp only [wrap, cell, Int.natCast_emod, Int.toNat_of_nonneg low]
  exact Int.emod_eq_of_lt low high

/-- The position of a named register; no name and an unknown name give none. -/
def registerAt? (arch : Architecture) (name : String) : Option (Fin arch.registers.length) :=
  if name.isEmpty then none else arch.registerIndex? name

/-- The register that an instruction works on: the selected one or else the accumulator. -/
def workingRegister? (arch : Architecture) (instruction : Instruction) (opcode : UInt8) :
    Option (Fin arch.registers.length) :=
  arch.registerAt?
    (if instruction.selectsRegister then arch.selectedName opcode else arch.accumulatorName)

end Architecture

end ClassroomCpu
