import ClassroomCpu.Text.Numeral

/-!
# Problems of a program

Why a line of a program is rejected, how that is said, and the code under
which it is known.
-/

namespace ClassroomCpu.Assembly

/-- Why a line is rejected. -/
inductive Problem
  /-- There are too few or too many arguments. -/
  | wrongNumberOfArguments (mnemonic : String)
  /-- The mnemonic is unknown; there may be a known one close to it. -/
  | invalidInstruction (mnemonic : String) (suggestion : Option String)
  /-- An address is out of range or unknown. -/
  | invalidAddress (value : String)
  /-- A value is out of range or unknown. -/
  | invalidValue (value : String)
  | invalidString (value : String)
  /-- A label is no letter or underscore with letters, digits and underscores behind it. -/
  | invalidLabel (label : String)
  /-- An argument has none of the forms that the instruction takes. -/
  | invalidArgument (argument : String)
  | duplicateLabel (label : String)
  /-- A byte would be put where there is one already. -/
  | memoryOverlap (address : Nat)
  /-- The machine has no such feature. -/
  | notImplemented (feature : String)
  deriving DecidableEq, Repr

namespace Problem

/-- The code of a problem. -/
def code : Problem → String
  | wrongNumberOfArguments _ => "WRONG_NUMBER_OF_ARGUMENTS"
  | invalidInstruction _ _ => "INVALID_INSTRUCTION"
  | invalidAddress _ => "INVALID_ADDRESS"
  | invalidValue _ => "INVALID_VALUE"
  | invalidString _ => "INVALID_STRING"
  | invalidLabel _ => "INVALID_LABEL"
  | invalidArgument _ => "INVALID_ARGUMENT"
  | duplicateLabel _ => "DUPLICATE_LABEL"
  | memoryOverlap _ => "MEMORY_OVERLAP"
  | notImplemented _ => "NOT_IMPLEMENTED"

/-- The wording of a problem. -/
def message : Problem → String
  | wrongNumberOfArguments mnemonic => "Wrong number of arguments for " ++ mnemonic
  | invalidInstruction mnemonic (some suggestion) =>
      "Invalid instruction " ++ mnemonic ++ ", did you mean " ++ suggestion ++ "?"
  | invalidInstruction mnemonic none => "Invalid instruction " ++ mnemonic
  | invalidAddress value => "Invalid address " ++ value
  | invalidValue value => "Invalid value " ++ value
  | invalidString value => "Invalid string " ++ value
  | invalidLabel label => "Invalid label " ++ label
  | invalidArgument argument => "Invalid argument " ++ argument
  | duplicateLabel label => "Duplicate label " ++ label
  | memoryOverlap address => "Memory overlap at address " ++ Text.decimal address
  | notImplemented feature => "Not implemented: " ++ feature

end Problem

/-- A problem on a line, which is counted from zero. -/
structure SourceError where
  line : Nat
  problem : Problem
  deriving DecidableEq, Repr

namespace SourceError

/-- The wording of an error; people count lines from one. -/
def message (error : SourceError) : String :=
  "Line " ++ Text.decimal (error.line + 1) ++ ": " ++ error.problem.message

end SourceError

end ClassroomCpu.Assembly
