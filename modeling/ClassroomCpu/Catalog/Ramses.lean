import ClassroomCpu.Architecture.Basic

/-!
# Ramses and Pericles

Two machines with three registers and four addressing modes.  Pericles is
Ramses with a larger memory: addresses take two bytes, low byte first, so that
the size of an instruction depends on the addressing mode of its operand.
-/

namespace ClassroomCpu.Catalog

/-- The registers of Ramses and Pericles, with a program counter of the given width. -/
def ramsesRegisters (counter : RegisterSpec) : List RegisterSpec :=
  [.eightBit "A" ⟨"....00.."⟩ true,
    .eightBit "B" ⟨"....01.."⟩ true,
    .eightBit "X" ⟨"....10.."⟩ true,
    counter]

/-- The addressing modes of Ramses and Pericles. -/
def ramsesModes : List AddressingMode :=
  [⟨⟨"......00"⟩, .direct, "a"⟩,
    ⟨⟨"......01"⟩, .indirect, "a,I"⟩,
    ⟨⟨"......10"⟩, .immediate, "#a"⟩,
    ⟨⟨"......11"⟩, .indexedByX, "a,X"⟩]

/-- The flags of Ramses and Pericles. -/
def ramsesFlags : List FlagSpec :=
  [⟨.negative, "N", false⟩, ⟨.zero, "Z", true⟩, ⟨.carry, "C", false⟩]

/-- The instruction set of Ramses and Pericles, with the given size of those with an operand. -/
def ramsesInstructions (operandSize : Nat) : List Instruction :=
  [⟨1, ⟨"0000...."⟩, .nop, "nop"⟩,
    ⟨operandSize, ⟨"0001...."⟩, .store, "str r a"⟩,
    ⟨operandSize, ⟨"0010...."⟩, .load, "ldr r a"⟩,
    ⟨operandSize, ⟨"0011...."⟩, .add, "add r a"⟩,
    ⟨operandSize, ⟨"0100...."⟩, .or, "or r a"⟩,
    ⟨operandSize, ⟨"0101...."⟩, .and, "and r a"⟩,
    ⟨1, ⟨"0110...."⟩, .not, "not r"⟩,
    ⟨operandSize, ⟨"0111...."⟩, .sub, "sub r a"⟩,
    ⟨operandSize, ⟨"1000...."⟩, .jump .always, "jmp a"⟩,
    ⟨operandSize, ⟨"1001...."⟩, .jump .negative, "jn a"⟩,
    ⟨operandSize, ⟨"1010...."⟩, .jump .zero, "jz a"⟩,
    ⟨operandSize, ⟨"1011...."⟩, .jump .carry, "jc a"⟩,
    ⟨operandSize, ⟨"1100...."⟩, .call, "jsr a"⟩,
    ⟨1, ⟨"1101...."⟩, .neg, "neg r"⟩,
    ⟨1, ⟨"1110...."⟩, .shiftRight, "shr r"⟩,
    ⟨1, ⟨"1111...."⟩, .halt, "hlt"⟩]

/-- The datasheet of Ramses. -/
def ramsesSheet : Datasheet where
  name := "Ramses"
  identifier := "RMS"
  fileExtension := "mem"
  memorySize := 256
  flags := ramsesFlags
  registers := ramsesRegisters (.eightBit "PC" ⟨""⟩ false)
  instructions := ramsesInstructions 2
  addressingModes := ramsesModes
  byteOrder := .big
  counterName := "PC"
  accumulatorName := ""
  immediateBytes := 1
  stackPointerName := ""
  stackSize := 0
  model := .standard

/-- A machine with three registers and four addressing modes. -/
def ramses : Architecture where
  toDatasheet := ramsesSheet
  counter := ⟨3, by decide⟩
  memorySize_eq := by decide
  counter_eq := by decide
  sound := by decide

/-- The datasheet of Pericles. -/
def periclesSheet : Datasheet where
  name := "Pericles"
  identifier := "PRC"
  fileExtension := "mem"
  memorySize := 4096
  flags := ramsesFlags
  registers := ramsesRegisters (.twelveBit "PC" ⟨""⟩ false)
  instructions := ramsesInstructions 0
  addressingModes := ramsesModes
  byteOrder := .little
  counterName := "PC"
  accumulatorName := ""
  immediateBytes := 1
  stackPointerName := ""
  stackSize := 0
  model := .standard

/-- Ramses with a memory of 4096 cells and addresses of two bytes. -/
def pericles : Architecture where
  toDatasheet := periclesSheet
  counter := ⟨3, by decide⟩
  memorySize_eq := by decide
  counter_eq := by decide
  sound := by decide

end ClassroomCpu.Catalog
