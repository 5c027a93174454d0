import ClassroomCpu.Machine.Basic

/-!
# Summaries

The visible state of a machine on one line, for people who look for defects.
Each part is a record: a name, and its fields between braces.
-/

namespace ClassroomCpu

namespace Text

/-- A truth value as a word. -/
def truth (value : Bool) : String :=
  if value then "true" else "false"

/-- A record with the given name and fields. -/
def record (name : String) (fields : List (String × String)) : String :=
  name ++ " \x7B "
    ++ ", ".intercalate (fields.map fun field => field.1 ++ ": " ++ field.2)
    ++ " \x7D"

/-- A list of parts between brackets. -/
def bracketed (parts : List String) : String :=
  "[" ++ ", ".intercalate parts ++ "]"

end Text

namespace Machine

variable {arch : Architecture}

/-- A register with its description and its value. -/
def registerSummary (machine : Machine arch) (index : Fin arch.registers.length) : String :=
  let register := arch.registers.get index
  Text.record "Register"
    [("name", Text.quoted register.name),
      ("pattern", Text.quoted register.pattern.text),
      ("num_bits", Text.decimal register.width),
      ("is_data", Text.truth register.isData),
      ("value", Text.decimal (machine.register index))]

/-- A flag with its description and its value. -/
def flagSummary (machine : Machine arch) (index : Fin arch.flags.length) : String :=
  let flag := arch.flags.get index
  Text.record "Flag"
    [("code", flag.code.name),
      ("name", Text.quoted flag.name),
      ("default_value", Text.truth flag.default),
      ("value", Text.truth (machine.flag index))]

/-- The machine with its registers, its flags and its counts. -/
def summary (machine : Machine arch) : String :=
  Text.record "Machine"
    [("name", Text.quoted arch.name),
      ("registers",
        Text.bracketed ((List.finRange arch.registers.length).map machine.registerSummary)),
      ("flags", Text.bracketed ((List.finRange arch.flags.length).map machine.flagSummary)),
      ("running", Text.truth machine.running),
      ("instruction_count", Text.decimal machine.instructionCount),
      ("access_count", Text.decimal machine.accessCount)]

end Machine

end ClassroomCpu
