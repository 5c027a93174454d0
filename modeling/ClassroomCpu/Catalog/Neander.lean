import ClassroomCpu.Architecture.Basic

/-!
# Neander

An accumulator machine of eight bits with one addressing mode.
-/

namespace ClassroomCpu.Catalog

/-- The instruction set of Neander. -/
def neanderInstructions : List Instruction :=
  [⟨1, ⟨"0000...."⟩, .nop, "nop"⟩,
    ⟨2, ⟨"0001...."⟩, .store, "sta a"⟩,
    ⟨2, ⟨"0010...."⟩, .load, "lda a"⟩,
    ⟨2, ⟨"0011...."⟩, .add, "add a"⟩,
    ⟨2, ⟨"0100...."⟩, .or, "or a"⟩,
    ⟨2, ⟨"0101...."⟩, .and, "and a"⟩,
    ⟨1, ⟨"0110...."⟩, .not, "not"⟩,
    ⟨2, ⟨"1000...."⟩, .jump .always, "jmp a"⟩,
    ⟨2, ⟨"1001...."⟩, .jump .negative, "jn a"⟩,
    ⟨2, ⟨"1010...."⟩, .jump .zero, "jz a"⟩,
    ⟨1, ⟨"1111...."⟩, .halt, "hlt"⟩]

/-- The datasheet of Neander. -/
def neanderSheet : Datasheet where
  name := "Neander"
  identifier := "NDR"
  fileExtension := "mem"
  memorySize := 256
  flags := [⟨.negative, "N", false⟩, ⟨.zero, "Z", true⟩]
  registers := [.eightBit "AC" ⟨""⟩ true, .eightBit "PC" ⟨""⟩ false]
  instructions := neanderInstructions
  addressingModes := [⟨⟨"........"⟩, .direct, "a"⟩]
  byteOrder := .big
  counterName := "PC"
  accumulatorName := "AC"
  immediateBytes := 1
  stackPointerName := ""
  stackSize := 0
  model := .standard

/-- An accumulator machine of eight bits with one addressing mode. -/
def neander : Architecture where
  toDatasheet := neanderSheet
  counter := ⟨1, by decide⟩
  memorySize_eq := by decide
  counter_eq := by decide
  sound := by decide

end ClassroomCpu.Catalog
