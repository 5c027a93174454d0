import ClassroomCpu.Architecture.Basic

/-!
# Cesar

A machine of sixteen bits with eight registers and addressing modes that work
through registers; the last register is the program counter.  The words of an
instruction are stored high byte first, words of data low byte first.
-/

namespace ClassroomCpu.Catalog

/-- The instruction set of Cesar. -/
def cesarInstructions : List Instruction :=
  [⟨1, ⟨"0000...."⟩, .nop, "nop"⟩,
    ⟨1, ⟨"0001...."⟩, .clearFlags, "ccc f"⟩,
    ⟨1, ⟨"0010...."⟩, .setFlags, "scc f"⟩,
    ⟨2, ⟨"00110000"⟩, .branch .always, "br o"⟩,
    ⟨2, ⟨"00110001"⟩, .branch .notEqual, "bne o"⟩,
    ⟨2, ⟨"00110010"⟩, .branch .equal, "beq o"⟩,
    ⟨2, ⟨"00110011"⟩, .branch .plus, "bpl o"⟩,
    ⟨2, ⟨"00110100"⟩, .branch .minus, "bmi o"⟩,
    ⟨2, ⟨"00110101"⟩, .branch .overflowClear, "bvc o"⟩,
    ⟨2, ⟨"00110110"⟩, .branch .overflowSet, "bvs o"⟩,
    ⟨2, ⟨"00110111"⟩, .branch .carryClear, "bcc o"⟩,
    ⟨2, ⟨"00111000"⟩, .branch .carrySet, "bcs o"⟩,
    ⟨2, ⟨"00111001"⟩, .branch .greaterOrEqual, "bge o"⟩,
    ⟨2, ⟨"00111010"⟩, .branch .less, "blt o"⟩,
    ⟨2, ⟨"00111011"⟩, .branch .greater, "bgt o"⟩,
    ⟨2, ⟨"00111100"⟩, .branch .lessOrEqual, "ble o"⟩,
    ⟨2, ⟨"00111101"⟩, .branch .higher, "bhi o"⟩,
    ⟨2, ⟨"00111110"⟩, .branch .lowerOrSame, "bls o"⟩,
    ⟨0, ⟨"0100...."⟩, .jump .always, "jmp a"⟩,
    ⟨2, ⟨"0101...."⟩, .loop, "sob r o"⟩,
    ⟨0, ⟨"0110...."⟩, .call, "jsr r a"⟩,
    ⟨1, ⟨"0111...."⟩, .ret, "rts r"⟩,
    ⟨0, ⟨"10000000"⟩, .clear, "clr a"⟩,
    ⟨0, ⟨"10000001"⟩, .not, "not a"⟩,
    ⟨0, ⟨"10000010"⟩, .inc, "inc a"⟩,
    ⟨0, ⟨"10000011"⟩, .dec, "dec a"⟩,
    ⟨0, ⟨"10000100"⟩, .neg, "neg a"⟩,
    ⟨0, ⟨"10000101"⟩, .test, "tst a"⟩,
    ⟨0, ⟨"10000110"⟩, .rotateRight, "ror a"⟩,
    ⟨0, ⟨"10000111"⟩, .rotateLeft, "rol a"⟩,
    ⟨0, ⟨"10001000"⟩, .halve, "asr a"⟩,
    ⟨0, ⟨"10001001"⟩, .double, "asl a"⟩,
    ⟨0, ⟨"10001010"⟩, .addCarry, "adc a"⟩,
    ⟨0, ⟨"10001011"⟩, .subCarry, "sbc a"⟩,
    ⟨0, ⟨"1001...."⟩, .move, "mov a0 a1"⟩,
    ⟨0, ⟨"1010...."⟩, .add, "add a0 a1"⟩,
    ⟨0, ⟨"1011...."⟩, .sub, "sub a0 a1"⟩,
    ⟨0, ⟨"1100...."⟩, .compare, "cmp a0 a1"⟩,
    ⟨0, ⟨"1101...."⟩, .and, "and a0 a1"⟩,
    ⟨0, ⟨"1110...."⟩, .or, "or a0 a1"⟩,
    ⟨1, ⟨"1111...."⟩, .halt, "hlt"⟩]

/-- The addressing modes of Cesar. -/
def cesarModes : List AddressingMode :=
  [⟨⟨"..101..."⟩, .postIncrementIndirect, "((r)+)"⟩,
    ⟨⟨"..110..."⟩, .preDecrementIndirect, "(-(r))"⟩,
    ⟨⟨"..111..."⟩, .indexedIndirect, "(a(r))"⟩,
    ⟨⟨"..001..."⟩, .postIncrement, "(r)+"⟩,
    ⟨⟨"..010..."⟩, .preDecrement, "-(r)"⟩,
    ⟨⟨"..011..."⟩, .indexed, "a(r)"⟩,
    ⟨⟨"..100..."⟩, .registerIndirect, "(r)"⟩,
    ⟨⟨"..000..."⟩, .register, "r"⟩,
    ⟨⟨"..001..."⟩, .immediate, "#a"⟩,
    ⟨⟨"..101..."⟩, .direct, "a"⟩]

/-- The datasheet of Cesar. -/
def cesarSheet : Datasheet where
  name := "Cesar"
  identifier := "C16"
  fileExtension := "mem"
  memorySize := 65536
  flags := [⟨.negative, "N", false⟩, ⟨.zero, "Z", true⟩, ⟨.overflow, "V", false⟩,
    ⟨.carry, "C", false⟩]
  registers := [.sixteenBit "R0" ⟨".....000"⟩ true,
    .sixteenBit "R1" ⟨".....001"⟩ true,
    .sixteenBit "R2" ⟨".....010"⟩ true,
    .sixteenBit "R3" ⟨".....011"⟩ true,
    .sixteenBit "R4" ⟨".....100"⟩ true,
    .sixteenBit "R5" ⟨".....101"⟩ true,
    .sixteenBit "R6" ⟨".....110"⟩ true,
    .sixteenBit "R7" ⟨".....111"⟩ false]
  instructions := cesarInstructions
  addressingModes := cesarModes
  byteOrder := .little
  counterName := "R7"
  accumulatorName := ""
  immediateBytes := 2
  stackPointerName := "R6"
  stackSize := 0
  model := .word

/-- A machine of sixteen bits with eight registers. -/
def cesar : Architecture where
  toDatasheet := cesarSheet
  counter := ⟨7, by decide⟩
  memorySize_eq := by decide
  counter_eq := by decide
  sound := by decide

end ClassroomCpu.Catalog
