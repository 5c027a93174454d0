import ClassroomCpu.Assembly.OperandForm

/-!
# Arguments

The tokens behind a mnemonic are matched against the parameters of the
instruction; there may be a comma between two arguments.
-/

namespace ClassroomCpu.Assembly

/-- An argument that was matched against a parameter. -/
inductive Argument
  /-- A register that the opcode selects. -/
  | register (register : RegisterSpec)
  /-- An addressed operand. -/
  | operand (operand : Operand)
  /-- The target or the distance of a branch. -/
  | offset (text : String)
  /-- The letters of condition codes. -/
  | flags (letters : String)
  deriving DecidableEq

/-- The problem of tokens that fit no parameter: their texts in one. -/
def invalidTokens (tokens : List Token) : Problem :=
  .invalidArgument (String.join (tokens.map Token.text))

/-- The problem of an instruction with too few or too many arguments. -/
def wrongNumber (instruction : Instruction) : Problem :=
  .wrongNumberOfArguments instruction.title

/-- Matches the start of some tokens against a parameter; gives the tokens behind it, too. -/
def parseArgument (sheet : Datasheet) (instruction : Instruction) (parameter : Parameter)
    (tokens : List Token) : Outcome (Argument × List Token) :=
  match parameter, tokens with
  | .flags, .word letters :: rest => .ok (.flags letters, rest)
  | .flags, rest => .ok (.flags "", rest)
  | _, [] => reject (wrongNumber instruction)
  | .offset, .word text :: rest => .ok (.offset text, rest)
  | .register, .word name :: rest =>
      match sheet.selectableRegister? name with
      | some register => .ok (.register register, rest)
      | none => reject (invalidTokens tokens)
  | .offset, _ => reject (invalidTokens tokens)
  | .register, _ => reject (invalidTokens tokens)
  | .operand _, _ =>
      match matchOperand? sheet tokens with
      | .error fault => .error (.fault fault)
      | .ok none => reject (invalidTokens tokens)
      | .ok (some (operand, rest)) => .ok (.operand operand, rest)

/-- Takes away a comma at the start of some tokens. -/
def skipComma : List Token → List Token
  | .comma :: rest => rest
  | tokens => tokens

/-- Matches tokens against parameters that are not the first ones. -/
def parseFurther (sheet : Datasheet) (instruction : Instruction) :
    List Parameter → List Token → Outcome (List Argument)
  | [], [] => .ok []
  | [], _ :: _ => reject (wrongNumber instruction)
  | parameter :: parameters, tokens => do
      let (argument, rest) ← parseArgument sheet instruction parameter (skipComma tokens)
      let arguments ← parseFurther sheet instruction parameters rest
      return argument :: arguments

/-- Matches the tokens behind a mnemonic against the parameters of the instruction. -/
def parseArguments (sheet : Datasheet) (instruction : Instruction) (tokens : List Token) :
    Outcome (List Argument) :=
  match instruction.parameters, tokens with
  | [], [] => .ok []
  | [], _ :: _ => reject (wrongNumber instruction)
  | parameter :: parameters, tokens => do
      let (argument, rest) ← parseArgument sheet instruction parameter tokens
      let arguments ← parseFurther sheet instruction parameters rest
      return argument :: arguments

end ClassroomCpu.Assembly
