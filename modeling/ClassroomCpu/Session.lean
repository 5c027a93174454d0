import ClassroomCpu.Assembly.Assembler
import ClassroomCpu.Catalog
import ClassroomCpu.Execution.Step
import ClassroomCpu.Folder
import ClassroomCpu.Session.Command

/-!
# Sessions

A session is a conversation with one machine.  A line that starts with a point
is a command; any other line is added to the program, which is then built
again, and is taken away if that fails.
-/

namespace ClassroomCpu

/-- A machine, its program, and the assembler that builds it. -/
structure Session where
  arch : Architecture
  machine : Machine arch
  /-- The assembler with the tables of the last build, whether or not it succeeded. -/
  assembler : Assembly.Assembler arch
  /-- The lines of the program. -/
  source : List String

namespace Session

/-- Why a line is refused. -/
inductive Error
  | command (error : CommandError)
  | unknownMachine (name : String)
  /-- The program cannot be built. -/
  | build (errors : List Assembly.SourceError)
  /-- The memory image is refused. -/
  | image (error : ImportError)
  | file (error : FileError)
  | fault (fault : Fault)
  deriving DecidableEq, Repr

namespace Error

/-- The wording of an error. -/
def message : Error → String
  | command error => "command error: " ++ error.message
  | unknownMachine name => "unknown machine: " ++ name
  | build errors =>
      "build failed\n  " ++ "\n  ".intercalate (errors.map Assembly.SourceError.message)
  | image error => "could not load memory dump: " ++ error.message
  | file error => "IO error: " ++ error.message
  | fault defect => defect.message

end Error

/-- The answer to a line. -/
structure Reply where
  /-- The lines that are shown. -/
  output : List String
  /-- Why the line was refused, if it was. -/
  error : Option Error
  /-- The session after the line. -/
  session : Session

namespace Reply

/-- A reply that shows some lines. -/
def showing (session : Session) (output : List String) : Reply :=
  ⟨output, none, session⟩

/-- A reply that shows nothing. -/
def quiet (session : Session) : Reply :=
  ⟨[], none, session⟩

/-- A reply that refuses a line. -/
def refusing (session : Session) (error : Error) : Reply :=
  ⟨[], some error, session⟩

end Reply

/-- A session with a new machine of an architecture. -/
def new (arch : Architecture) : Session :=
  ⟨arch, .new arch, .new arch, []⟩

/-- A session with the machine of the given name. -/
def start (name : String) : Except Error Session :=
  match Catalog.named? name with
  | some arch => .ok (new arch)
  | none => .error (.unknownMachine name)

/-! ## The program -/

/-- Builds the program; the tables of the assembler are those of this build in any case. -/
def rebuild (session : Session) : Except Error Unit × Session :=
  let built := session.assembler.assemble session.machine ("\n".intercalate session.source)
  let session := { session with machine := built.machine, assembler := built.assembler }
  match built.fault, built.errors with
  | some fault, _ => (.error (.fault fault), session)
  | none, [] => (.ok (), session)
  | none, errors => (.error (.build errors), session)

/-- Adds a line to the program and builds it; a line with which that fails is taken away. -/
def addLine (session : Session) (line : String) : Reply :=
  match rebuild { session with source := session.source ++ [line] } with
  | (.ok (), built) => .quiet built
  | (.error error, failed) => .refusing { failed with source := session.source } error

/-- Builds the program as it is. -/
def buildProgram (session : Session) : Reply :=
  match session.rebuild with
  | (.ok (), built) => .quiet built
  | (.error error, failed) => .refusing failed error

/-- Reads a program, or a memory image if the name of the file says so. -/
def load (read : FileReader) (session : Session) (path : String) : Reply :=
  if path.endsWith ("." ++ session.arch.fileExtension) then
    match read path with
    | .error error => .refusing session (.file error)
    | .ok image =>
        match session.machine.importImage image with
        | .error error => .refusing session (.image error)
        | .ok machine => .quiet { session with machine, source := [] }
  else
    match read.text path with
    | .error error => .refusing session (.file error)
    | .ok text => buildProgram { session with source := Text.lines text }

/-- The program with line numbers and the addresses of the lines. -/
def listing (session : Session) : List String :=
  session.source.mapIdx fun number line =>
    let address :=
      match session.assembler.address? number with
      | some address => Text.decimal address
      | none => ""
    Text.alignRight 4 (Text.decimal (number + 1)) ++ " " ++ Text.alignRight 5 address
      ++ "  " ++ line

/-- Puts a label behind those with no higher address. -/
def insertLabel (label : String × Nat) : List (String × Nat) → List (String × Nat)
  | [] => [label]
  | other :: others =>
      if label.2 < other.2 then label :: other :: others else other :: insertLabel label others

/-- The labels of the last build by ascending address. -/
def labelLines (session : Session) : List String :=
  (session.assembler.labels.foldr insertLabel []).map fun label =>
    "Label " ++ label.1 ++ " @ " ++ Text.decimal label.2

/-! ## The machine -/

/-- The program counter and the counts. -/
def stateLine (session : Session) : String :=
  "PC = " ++ Text.decimal session.machine.counter
    ++ "  instructions: " ++ Text.decimal session.machine.instructionCount
    ++ "  accesses: " ++ Text.decimal session.machine.accessCount

/-- The registers with their values. -/
def registerLines (session : Session) : List String :=
  (List.finRange session.arch.registers.length).map fun index =>
    let register := session.arch.registers.get index
    "Register " ++ register.name ++ " = "
      ++ Text.signedDecimal (register.shown true (session.machine.register index))

/-- The flags with their values. -/
def flagLines (session : Session) : List String :=
  (List.finRange session.arch.flags.length).map fun index =>
    "Flag " ++ (session.arch.flags.get index).name ++ " = "
      ++ Text.decimal (session.machine.flag index).toNat

/-- Some memory cells with their values. -/
def memoryLines (session : Session) (start count : Nat) : List String :=
  (List.range count).map fun offset =>
    let cell := session.arch.cell (start + offset)
    "Memory " ++ Text.decimal cell ++ " = " ++ Text.decimal (session.machine.peek cell).toNat

/-- The instruction at an address with its bytes and its label. -/
def instructionLine (session : Session) (address : Nat) : String :=
  let shown := session.machine.instructionText address
  let bytes := (session.machine.peekBytes address shown.size).map Text.hexByte
  Text.alignRight 5 (Text.decimal address) ++ "  "
    ++ Text.alignLeft 12 (" ".intercalate bytes) ++ " "
    ++ Text.alignLeft 10 (session.machine.label address) ++ " " ++ shown.text

/-- Some instructions in memory, each behind the one before it. -/
def instructionLines (session : Session) (address : Nat) : Nat → List String
  | 0 => []
  | count + 1 =>
      session.instructionLine address
        :: session.instructionLines
          (session.arch.cell (address + (session.machine.instructionText address).size)) count

/-- Makes a number of steps. -/
def steps {arch : Architecture} : Nat → Exec arch Unit
  | 0 => pure ()
  | count + 1 => do
      Exec.step
      steps count

/-- Lets the machine execute, and shows where it stands. -/
def execute (session : Session) (program : Exec session.arch Unit) : Reply :=
  match EStateM.run program session.machine with
  | .ok _ machine =>
      let session := { session with machine }
      .showing session [session.stateLine]
  | .error fault machine => .refusing { session with machine } (.fault fault)

/-! ## Lines of the conversation -/

/-- What `.help` shows. -/
def helpLines : List String :=
  ["Available commands:",
    "  .machine <name>              Switch to another machine, discarding the program",
    "  .load <file>                 Load assembly source or a memory dump",
    "  .list                        Print the program source",
    "  .clear                       Discard the program",
    "  .step [n]                    Execute one or n instructions",
    "  .run                         Execute until the machine halts",
    "  .reset                       Reset registers, flags and counters",
    "  .regs, .registers            List all registers and their values",
    "  .flags                       List all flags",
    "  .mem <addr> [n]              Print n memory cells starting at addr",
    "  .dis [addr] [n]              Disassemble n instructions starting at addr",
    "  .labels                      List all labels of the program",
    "Numbers are decimal, or hexadecimal with an h prefix (eg. h1F).",
    "Any other line is appended to the program, which is then rebuilt."]

/-- Carries out a command. -/
def perform (read : FileReader) (session : Session) : Command → Reply
  | .help => .showing session helpLines
  | .machine name =>
      match start name with
      | .ok fresh => .showing fresh ["Machine " ++ fresh.arch.name]
      | .error error => .refusing session error
  | .load path => session.load read path
  | .list => .showing session session.listing
  | .clear => buildProgram { session with source := [] }
  | .step count => session.execute (steps count)
  | .run => session.execute (discard (Exec.run Exec.noLimit))
  | .reset => .quiet { session with machine := session.machine.reset }
  | .registers => .showing session session.registerLines
  | .flags => .showing session session.flagLines
  | .memory start count => .showing session (session.memoryLines start count)
  | .disassemble start count =>
      .showing session (session.instructionLines (start.getD session.machine.counter) count)
  | .labels => .showing session session.labelLines

/-- Answers a line of the conversation. -/
def handle (read : FileReader) (session : Session) (line : String) : Reply :=
  match Text.trimEnd line.toList with
  | [] => .quiet session
  | '.' :: text =>
      match Command.ofText text with
      | .ok command => session.perform read command
      | .error error => .refusing session (.command error)
  | text => session.addLine (String.ofList text)

/-- What invites the next line: the machine and its program counter. -/
def invitation (session : Session) : String :=
  let digits := (Nat.toDigits 16 session.machine.counter).map Char.toUpper
  session.arch.identifier ++ " h"
    ++ String.ofList (List.replicate (4 - digits.length) '0' ++ digits) ++ "> "

end Session

end ClassroomCpu
