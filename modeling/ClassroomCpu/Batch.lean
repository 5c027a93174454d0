import ClassroomCpu.Assembly.Build
import ClassroomCpu.Catalog
import ClassroomCpu.Execution.Step
import ClassroomCpu.Folder

/-!
# Running a program from a file

One program or memory image is loaded into a machine, its memory image may be
written to a file, the machine runs for a limited number of steps, and what is
left in its registers and flags is shown.
-/

namespace ClassroomCpu

namespace Batch

/-- What is asked for. -/
structure Request where
  /-- The file with the program or the memory image. -/
  source : String
  /-- The name of the machine, if one is given. -/
  machine : Option String
  /-- The greatest number of steps, as it is written. -/
  steps : String
  /-- The file for the memory image of the machine before the run. -/
  output : Option String
  deriving DecidableEq, Repr

/-- A request with options but no file yet. -/
structure Options where
  source : Option String
  machine : Option String
  steps : String
  output : Option String

/-- What an option sets. -/
inductive Setting
  | machine
  | steps
  | output
  deriving DecidableEq, Repr

namespace Setting

/-- The setting with a long name. -/
def named? : String → Option Setting
  | "machine" => some machine
  | "steps" => some steps
  | "output" => some output
  | _ => none

/-- The setting with a letter for a name. -/
def lettered? : Char → Option Setting
  | 'm' => some machine
  | 's' => some steps
  | 'o' => some output
  | _ => none

end Setting

/-- One argument of a command line. -/
inductive Argument
  /-- The file that is asked for. -/
  | source (path : String)
  /-- An option, and its value if that is a part of the same argument. -/
  | option (setting : Setting) (value : Option String)
  /-- Nothing that is known. -/
  | unknown
  deriving DecidableEq, Repr

namespace Argument

/-- The value of an option in the rest of its argument, without equals signs in front. -/
def value (rest : List Char) : String :=
  String.ofList (rest.dropWhile (· = '='))

/--
The argument that a text writes.  Two hyphens stand before a long name, whose
value follows an equals sign; one hyphen stands before a letter, whose value
follows directly; a hyphen alone is the name of a file.
-/
def ofText (text : String) : Argument :=
  match text.toList with
  | '-' :: '-' :: rest =>
      let name := rest.dropWhile (· = '-')
      match Setting.named? (String.ofList (name.takeWhile (· ≠ '='))) with
      | some setting =>
          option setting (if '=' ∈ name then some (value (name.dropWhile (· ≠ '='))) else none)
      | none => unknown
  | '-' :: letter :: rest =>
      match Setting.lettered? letter with
      | some setting => option setting (if rest.isEmpty then none else some (value rest))
      | none => unknown
  | _ => source text

end Argument

namespace Options

/-- The options if none are given. -/
def default : Options :=
  ⟨none, none, "10000", none⟩

/-- The options with another value for a setting. -/
def set (options : Options) (setting : Setting) (value : String) : Options :=
  match setting with
  | .machine => { options with machine := some value }
  | .steps => { options with steps := value }
  | .output => { options with output := some value }

/-- The options with a file, unless there is one. -/
def setSource? (options : Options) (path : String) : Option Options :=
  if options.source.isSome then none else some { options with source := some path }

/--
Adds arguments to the options; nothing if they make no sense.  All arguments
behind two hyphens are files.
-/
def add? (options : Options) : List String → Option Options
  | [] => some options
  | "--" :: paths => paths.foldlM setSource? options
  | argument :: rest =>
      match Argument.ofText argument with
      | .source path => do (← options.setSource? path).add? rest
      | .option setting (some value) => (options.set setting value).add? rest
      | .option setting none =>
          match rest with
          | [] => none
          | value :: rest =>
              match Argument.ofText value with
              | .source value => (options.set setting value).add? rest
              | _ => none
      | .unknown => none

end Options

/-- The request that the arguments of a command line make, if they make one. -/
def Request.ofArguments? (arguments : List String) : Option Request := do
  let options ← Options.default.add? arguments
  let source ← options.source
  return ⟨source, options.machine, options.steps, options.output⟩

/-- Why a request is not carried out. -/
inductive Error
  | unknownMachine (name : String)
  | invalidSteps (text : String)
  /-- The program cannot be built. -/
  | build (errors : List Assembly.SourceError)
  /-- The memory image is refused. -/
  | image (error : ImportError)
  | file (error : FileError)
  | fault (fault : Fault)
  deriving DecidableEq, Repr

/-- The lines that say why a request is not carried out. -/
def Error.lines : Error → List String
  | unknownMachine name => ["Unknown machine: " ++ name]
  | invalidSteps text => ["Invalid number of steps: " ++ text]
  | build errors => errors.map Assembly.SourceError.message
  | image error => ["Could not load memory dump: " ++ error.message]
  | file error => ["IO error: " ++ error.message]
  | fault defect => [defect.message]

/-- Numbers of steps are below this number. -/
def stepBound : Nat :=
  powerOfTwo 64

/-- A machine that is ready to run. -/
structure Prepared where
  arch : Architecture
  machine : Machine arch
  /-- The greatest number of steps. -/
  limit : Nat

/-- The machine that a memory image names, unless the request names one. -/
def imageArchitecture (request : Request) (arch : Architecture) (image : List UInt8) :
    Architecture :=
  if request.machine.isSome then arch
  else ((MemoryImage.identifier? image).bind Catalog.identified?).getD arch

/-- The machine with the memory image of a request. -/
def loadImage (read : FileReader) (request : Request) (arch : Architecture) (limit : Nat) :
    Except Error Prepared := do
  let image ← (read request.source).mapError .file
  let arch := imageArchitecture request arch image
  let machine ← ((Machine.new arch).importImage image).mapError .image
  return ⟨arch, machine, limit⟩

/-- The machine with the program of a request. -/
def loadProgram (read : FileReader) (request : Request) (arch : Architecture) (limit : Nat) :
    Except Error Prepared := do
  let source ← (read.text request.source).mapError .file
  let (build, machine) := (Machine.new arch).assemble source
  match build.fault, build.errors with
  | some fault, _ => throw (.fault fault)
  | none, [] => return ⟨arch, machine, limit⟩
  | none, errors => throw (.build errors)

/-- The machine that a request is about, loaded and ready to run. -/
def prepare (read : FileReader) (request : Request) : Except Error Prepared :=
  let name := request.machine.getD "neander"
  match Catalog.named? name with
  | none => .error (.unknownMachine name)
  | some arch =>
      match Text.unsigned? 10 stepBound request.steps.toList with
      | none => .error (.invalidSteps request.steps)
      | some limit =>
          if request.source.endsWith ("." ++ arch.fileExtension) then
            loadImage read request arch limit
          else loadProgram read request arch limit

/-- The registers, the flags and the counts of a machine. -/
def stateLines {arch : Architecture} (machine : Machine arch) : List String :=
  let registers := (List.finRange arch.registers.length).map fun index =>
    let register := arch.registers.get index
    register.name ++ " = " ++ Text.signedDecimal (register.shown true (machine.register index))
  let flags := (List.finRange arch.flags.length).map fun index =>
    (arch.flags.get index).name ++ " = " ++ Text.decimal (machine.flag index).toNat
  "  ".intercalate registers
    :: (if flags.isEmpty then [] else ["  ".intercalate flags])
    ++ ["instructions: " ++ Text.decimal machine.instructionCount
      ++ "  accesses: " ++ Text.decimal machine.accessCount]

/-- Runs the machine and shows what is left. -/
def finish (prepared : Prepared) : Except Error (List String) :=
  match EStateM.run (Exec.run prepared.limit) prepared.machine with
  | .ok _ machine => .ok (stateLines machine)
  | .error fault _ => .error (.fault fault)

/-- What a request leaves behind. -/
structure Report where
  /-- What was printed, one text below the other. -/
  output : List String
  /-- The complaints, one text below the other. -/
  errors : List String
  folder : Folder

/-- The lines of the output. -/
def Report.outputLines (report : Report) : List String :=
  Text.printedLines report.output

/-- The lines of the complaints. -/
def Report.errorLines (report : Report) : List String :=
  Text.printedLines report.errors

/-- The folder with the memory image that a request asks for. -/
def writeImage (folder : Folder) (request : Request) (prepared : Prepared) :
    Except Error Folder :=
  match request.output with
  | none => .ok folder
  | some path => (folder.write path prepared.machine.exportImage).mapError .file

/-- Carries out a request on the files of a folder. -/
def runIn (folder : Folder) (request : Request) : Report :=
  match prepare folder.read request with
  | .error error => ⟨[], error.lines, folder⟩
  | .ok prepared =>
      match writeImage folder request prepared with
      | .error error => ⟨[], error.lines, folder⟩
      | .ok folder =>
          match finish prepared with
          | .error error => ⟨[], error.lines, folder⟩
          | .ok lines => ⟨lines, [], folder⟩

end Batch

end ClassroomCpu
