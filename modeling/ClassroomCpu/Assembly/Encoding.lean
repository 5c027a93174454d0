import ClassroomCpu.Assembly.Evaluation

/-!
# Encoding of instructions

The bytes of an instruction.  The arguments add bits to the opcode, and
operands add bytes behind it.
-/

namespace ClassroomCpu.Assembly

/-! ## Byte machines -/

/-- The parts of an instruction of a byte machine. -/
structure ByteParts where
  opcode : UInt8
  /-- The kinds of addressing of the operands. -/
  kinds : List AddressingMode.Kind
  /-- The bytes of the operands. -/
  operands : List UInt8

namespace ByteParts

/-- The value of an operand of a byte machine. -/
def operandValue (scope : Scope) (arch : Architecture) (operand : Operand) : Outcome Int :=
  match operand.value with
  | none => .ok 0
  | some token =>
      if operand.mode.kind = .immediate then
        scope.immediate (arch.operandBytes operand.mode.kind) token
      else (scope.address arch token).map fun address => (address : Int)

/-- Adds an argument.  The addressing mode of the first operand is in the opcode. -/
def addArgument (scope : Scope) (arch : Architecture) (parts : ByteParts) :
    Argument → Outcome ByteParts
  | .register register => .ok { parts with opcode := parts.opcode ||| register.pattern.value }
  | .operand operand => do
      let value ← operandValue scope arch operand
      let kind := operand.mode.kind
      return {
        opcode := if parts.kinds.isEmpty then parts.opcode ||| operand.mode.bits else parts.opcode
        kinds := parts.kinds ++ [kind]
        operands := parts.operands ++ arch.byteOrder.encode (arch.operandBytes kind) value }
  | .offset _ => reject (.notImplemented Parameter.offset.word)
  | .flags _ => reject (.notImplemented Parameter.flags.word)

end ByteParts

/-- The bytes cut off at a length, or with zeros behind them up to it. -/
def fitLength (length : Nat) (bytes : List UInt8) : List UInt8 :=
  bytes.take length ++ List.replicate (length - bytes.length) 0

/-- The bytes of an instruction of a byte machine. -/
def encodeBytes (scope : Scope) (arch : Architecture) (instruction : Instruction)
    (arguments : List Argument) : Outcome (List UInt8) := do
  let parts ← arguments.foldlM (ByteParts.addArgument scope arch) ⟨instruction.opcode, [], []⟩
  return fitLength (arch.instructionBytes instruction parts.kinds) (parts.opcode :: parts.operands)

/-! ## Word machines -/

/-- The parts of an instruction of a word machine. -/
structure WordParts where
  /-- The first two bytes as one word. -/
  word : Nat
  /-- The bytes of the operand words. -/
  operands : List UInt8

namespace WordParts

/-- The number of a register in an opcode. -/
def registerNumber (register : RegisterSpec) : Nat :=
  register.pattern.value.toNat % 8

/-- The bits of the given condition code letters. -/
def flagBits (letters : String) : Outcome Nat :=
  letters.toList.foldlM (fun bits letter =>
    match [('n', 8), ('z', 4), ('v', 2), ('c', 1)].lookup letter.toLower with
    | some bit => .ok (bits ||| bit)
    | none => reject (.invalidArgument letters)) 0

/-- The value of the word of an operand. -/
def operandValue (scope : Scope) (arch : Architecture) (operand : Operand) : Outcome Int :=
  match operand.value, operand.mode.kind with
  | none, _ => .ok 0
  | some token, .immediate => scope.immediate 2 token
  | some token, .direct => (scope.address arch token).map fun address => (address : Int)
  | some token, _ => scope.number (.ofBytes 2) .invalidValue token

/-- The bits of an operand; a mode that names no register goes through the last one. -/
def operandBits (operand : Operand) : Nat :=
  let number :=
    match operand.register with
    | some register => registerNumber register
    | none => 7
  operand.mode.bits.toNat ||| number

/-- Adds an argument that was matched against a parameter. -/
def addArgument (scope : Scope) (arch : Architecture) (instruction : Instruction)
    (parts : WordParts) : Parameter × Argument → Outcome WordParts
  | (_, .register register) =>
      .ok { parts with word := parts.word ||| (registerNumber register * 256) }
  | (_, .flags letters) => do
      let bits ← flagBits letters
      return { parts with word := parts.word ||| (bits * 256) }
  | (_, .offset text) => do
      let byte ← scope.offset instruction text
      return { parts with word := parts.word ||| byte.toNat }
  | (parameter, .operand operand) =>
      let place := if parameter = .operand "a0" then 64 else 1
      let word := parts.word ||| (operandBits operand * place)
      if arch.operandBytes operand.mode.kind = 2 then do
        let value ← operandValue scope arch operand
        return { word, operands := parts.operands ++ ByteOrder.big.encode 2 value }
      else .ok { parts with word }

end WordParts

/-- The bytes of an instruction of a word machine: the opcode word and the operand words. -/
def encodeWord (scope : Scope) (arch : Architecture) (instruction : Instruction)
    (arguments : List Argument) : Outcome (List UInt8) := do
  let parts ← (instruction.parameters.zip arguments).foldlM
    (WordParts.addArgument scope arch instruction) ⟨instruction.opcode.toNat * 256, []⟩
  let first := UInt8.ofNat (parts.word / 256)
  return if instruction.size = 1 then [first]
    else first :: UInt8.ofNat parts.word :: parts.operands

/-- The bytes of an instruction. -/
def encode (scope : Scope) (arch : Architecture) (instruction : Instruction)
    (arguments : List Argument) : Outcome (List UInt8) :=
  match arch.model with
  | .word => encodeWord scope arch instruction arguments
  | .standard | .stack => encodeBytes scope arch instruction arguments

end ClassroomCpu.Assembly
