import ClassroomCpu.Architecture.Basic

/-!
# REG

A machine with sixty-four registers that can only count up, count down and
choose between two places to go on.
-/

namespace ClassroomCpu.Catalog

/-- One of the registers of REG, by its number. -/
def regRegister (number : Nat) : RegisterSpec :=
  .eightBit ("R" ++ Text.decimal number)
    ⟨".." ++ String.ofList ([5, 4, 3, 2, 1, 0].map fun position =>
      BitPattern.symbol (number.testBit position))⟩ true

/-- The instruction set of REG. -/
def regInstructions : List Instruction :=
  [⟨1, ⟨"00......"⟩, .halt, "hlt"⟩,
    ⟨1, ⟨"01......"⟩, .inc, "inc r"⟩,
    ⟨1, ⟨"10......"⟩, .dec, "dec r"⟩,
    ⟨3, ⟨"11......"⟩, .choose, "if r a0 a1"⟩]

/-- The datasheet of REG. -/
def regSheet : Datasheet where
  name := "REG"
  identifier := "REG"
  fileExtension := "mem"
  memorySize := 256
  flags := []
  registers := (List.range 64).map regRegister ++ [.eightBit "PC" ⟨""⟩ false]
  instructions := regInstructions
  addressingModes := [⟨⟨"........"⟩, .direct, "a"⟩]
  byteOrder := .big
  counterName := "PC"
  accumulatorName := ""
  immediateBytes := 1
  stackPointerName := ""
  stackSize := 0
  model := .standard

/-- A machine with sixty-four registers and four instructions. -/
def reg : Architecture where
  toDatasheet := regSheet
  counter := ⟨64, by decide⟩
  memorySize_eq := by decide
  counter_eq := by decide +kernel
  sound := by decide

end ClassroomCpu.Catalog
