import ClassroomCpu.Architecture.Basic

/-!
# Ahmes

Neander with subtraction, shifts, and flags for carry, borrow and overflow.
-/

namespace ClassroomCpu.Catalog

/-- The instruction set of Ahmes. -/
def ahmesInstructions : List Instruction :=
  [⟨1, ⟨"0000...."⟩, .nop, "nop"⟩,
    ⟨2, ⟨"0001...."⟩, .store, "sta a"⟩,
    ⟨2, ⟨"0010...."⟩, .load, "lda a"⟩,
    ⟨2, ⟨"0011...."⟩, .add, "add a"⟩,
    ⟨2, ⟨"0100...."⟩, .or, "or a"⟩,
    ⟨2, ⟨"0101...."⟩, .and, "and a"⟩,
    ⟨1, ⟨"0110...."⟩, .not, "not"⟩,
    ⟨2, ⟨"0111...."⟩, .sub, "sub a"⟩,
    ⟨2, ⟨"1000...."⟩, .jump .always, "jmp a"⟩,
    ⟨2, ⟨"100100.."⟩, .jump .negative, "jn a"⟩,
    ⟨2, ⟨"100101.."⟩, .jump .positive, "jp a"⟩,
    ⟨2, ⟨"100110.."⟩, .jump .overflow, "jv a"⟩,
    ⟨2, ⟨"100111.."⟩, .jump .noOverflow, "jnv a"⟩,
    ⟨2, ⟨"101000.."⟩, .jump .zero, "jz a"⟩,
    ⟨2, ⟨"101001.."⟩, .jump .notZero, "jnz a"⟩,
    ⟨2, ⟨"101100.."⟩, .jump .carry, "jc a"⟩,
    ⟨2, ⟨"101101.."⟩, .jump .noCarry, "jnc a"⟩,
    ⟨2, ⟨"101110.."⟩, .jump .borrow, "jb a"⟩,
    ⟨2, ⟨"101111.."⟩, .jump .noBorrow, "jnb a"⟩,
    ⟨1, ⟨"111000.."⟩, .shiftRight, "shr"⟩,
    ⟨1, ⟨"111001.."⟩, .shiftLeft, "shl"⟩,
    ⟨1, ⟨"111010.."⟩, .rotateRight, "ror"⟩,
    ⟨1, ⟨"111011.."⟩, .rotateLeft, "rol"⟩,
    ⟨1, ⟨"1111...."⟩, .halt, "hlt"⟩]

/-- The datasheet of Ahmes. -/
def ahmesSheet : Datasheet where
  name := "Ahmes"
  identifier := "AHM"
  fileExtension := "mem"
  memorySize := 256
  flags := [⟨.negative, "N", false⟩, ⟨.zero, "Z", true⟩, ⟨.overflow, "V", false⟩,
    ⟨.carry, "C", false⟩, ⟨.borrow, "B", false⟩]
  registers := [.eightBit "AC" ⟨""⟩ true, .eightBit "PC" ⟨""⟩ false]
  instructions := ahmesInstructions
  addressingModes := [⟨⟨"........"⟩, .direct, "a"⟩]
  byteOrder := .big
  counterName := "PC"
  accumulatorName := "AC"
  immediateBytes := 1
  stackPointerName := ""
  stackSize := 0
  model := .standard

/-- Neander with subtraction, shifts, and flags for carry, borrow and overflow. -/
def ahmes : Architecture where
  toDatasheet := ahmesSheet
  counter := ⟨1, by decide⟩
  memorySize_eq := by decide
  counter_eq := by decide
  sound := by decide

end ClassroomCpu.Catalog
