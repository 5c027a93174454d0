import ClassroomCpu.Architecture.Basic

/-!
# Volta

A machine that computes on a stack of sixty-four cells apart from memory.
-/

namespace ClassroomCpu.Catalog

/-- The instruction set of Volta. -/
def voltaInstructions : List Instruction :=
  [⟨1, ⟨"00000000"⟩, .nop, "nop"⟩,
    ⟨1, ⟨"00000001"⟩, .add, "add"⟩,
    ⟨1, ⟨"00000010"⟩, .sub, "sub"⟩,
    ⟨1, ⟨"00000011"⟩, .and, "and"⟩,
    ⟨1, ⟨"00000100"⟩, .or, "or"⟩,
    ⟨1, ⟨"00010001"⟩, .clear, "clr"⟩,
    ⟨1, ⟨"00010010"⟩, .not, "not"⟩,
    ⟨1, ⟨"00010011"⟩, .neg, "neg"⟩,
    ⟨1, ⟨"00010100"⟩, .inc, "inc"⟩,
    ⟨1, ⟨"00010101"⟩, .dec, "dec"⟩,
    ⟨1, ⟨"00010110"⟩, .halve, "asr"⟩,
    ⟨1, ⟨"00010111"⟩, .double, "asl"⟩,
    ⟨1, ⟨"00011000"⟩, .rotateRight, "ror"⟩,
    ⟨1, ⟨"00011001"⟩, .rotateLeft, "rol"⟩,
    ⟨1, ⟨"00100001"⟩, .skip .zero, "sz"⟩,
    ⟨1, ⟨"00100010"⟩, .skip .notZero, "snz"⟩,
    ⟨1, ⟨"00100011"⟩, .skip .positive, "spl"⟩,
    ⟨1, ⟨"00100100"⟩, .skip .negative, "smi"⟩,
    ⟨1, ⟨"00100101"⟩, .skip .notNegative, "spz"⟩,
    ⟨1, ⟨"00100110"⟩, .skip .notPositive, "smz"⟩,
    ⟨1, ⟨"01100110"⟩, .ret, "rts"⟩,
    ⟨2, ⟨"011100.."⟩, .push, "psh a"⟩,
    ⟨2, ⟨"011101.."⟩, .pop, "pop a"⟩,
    ⟨2, ⟨"100000.."⟩, .jump .always, "jmp a"⟩,
    ⟨2, ⟨"100001.."⟩, .call, "jsr a"⟩,
    ⟨1, ⟨"1111...."⟩, .halt, "hlt"⟩]

/-- The datasheet of Volta. -/
def voltaSheet : Datasheet where
  name := "Volta"
  identifier := "VLT"
  fileExtension := "mem"
  memorySize := 256
  flags := []
  registers := [.eightBit "PC" ⟨""⟩ false, .sixBit "SP" ⟨""⟩ false]
  instructions := voltaInstructions
  addressingModes := [⟨⟨"......00"⟩, .direct, "a"⟩,
    ⟨⟨"......01"⟩, .indirect, "a,I"⟩,
    ⟨⟨"......10"⟩, .immediate, "#a"⟩,
    ⟨⟨"......11"⟩, .indexedByCounter, "a,PC"⟩]
  byteOrder := .big
  counterName := "PC"
  accumulatorName := ""
  immediateBytes := 1
  stackPointerName := "SP"
  stackSize := 64
  model := .stack

/-- A machine that computes on a stack of sixty-four cells apart from memory. -/
def volta : Architecture where
  toDatasheet := voltaSheet
  counter := ⟨0, by decide⟩
  memorySize_eq := by decide
  counter_eq := by decide
  sound := by decide

end ClassroomCpu.Catalog
