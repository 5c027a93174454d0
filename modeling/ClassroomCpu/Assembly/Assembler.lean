import ClassroomCpu.Assembly.Build

/-!
# Assemblers

An assembler keeps the tables of its last build, whether or not that succeeded,
so that people can ask for labels and lines afterwards.  Both passes of the
next build work on the same tables, which are cleared before.
-/

namespace ClassroomCpu.Assembly

/-- The tables of an assembler, whose last build was for the given architecture. -/
structure Assembler (arch : Architecture) where
  /-- The cell for the next byte. -/
  cursor : Fin arch.memorySize
  labels : LabelTable
  /-- The first label of each cell as it was written; empty if there is none. -/
  labelTexts : Vector String arch.memorySize
  /-- The cells that a line has taken. -/
  reserved : Vector Bool arch.memorySize
  memory : Vector UInt8 arch.memorySize
  sourceMap : SourceMap

/-- What a build leaves behind. -/
structure Assembled (arch : Architecture) where
  /-- The problems of the first pass that met any. -/
  errors : List SourceError
  /-- The fault that ended the build. -/
  fault : Option Fault
  assembler : Assembler arch
  machine : Machine arch

/-- Whether a pass met a problem or a fault. -/
def PassResult.failed {State : Type} (result : PassResult State) : Bool :=
  result.fault.isSome || !result.errors.isEmpty

namespace Assembler

variable {arch : Architecture}

/-- An assembler that has built nothing yet. -/
def new (arch : Architecture) : Assembler arch where
  cursor := arch.cell 0
  labels := []
  labelTexts := Vector.replicate _ ""
  reserved := Vector.replicate _ false
  memory := Vector.replicate _ 0
  sourceMap := .empty

/-- Clears all tables for a build; the last one may have been for another machine. -/
def clear {before : Architecture} (_assembler : Assembler before) (arch : Architecture) :
    Assembler arch where
  cursor := arch.cell 0
  labels := []
  labelTexts := Vector.replicate _ ""
  reserved := Vector.replicate _ false
  memory := Vector.replicate _ 0
  sourceMap := .empty

/-! ## The tables of each pass -/

/-- What the first pass works on. -/
def layout (assembler : Assembler arch) : Layout arch where
  cursor := assembler.cursor
  labels := assembler.labels
  labelTexts := assembler.labelTexts
  reserved := assembler.reserved

/-- Takes over what the first pass has found out. -/
def withLayout (assembler : Assembler arch) (layout : Layout arch) : Assembler arch where
  cursor := layout.cursor
  labels := layout.labels
  labelTexts := layout.labelTexts
  reserved := layout.reserved
  memory := assembler.memory
  sourceMap := assembler.sourceMap

/-- What the second pass works on. -/
def image (assembler : Assembler arch) : Image arch where
  cursor := assembler.cursor
  memory := assembler.memory
  sourceMap := assembler.sourceMap

/-- Takes over what the second pass has emitted. -/
def withImage (assembler : Assembler arch) (image : Image arch) : Assembler arch where
  cursor := image.cursor
  labels := assembler.labels
  labelTexts := assembler.labelTexts
  reserved := assembler.reserved
  memory := image.memory
  sourceMap := image.sourceMap

/-! ## Building -/

/-- Treats a line in one of the passes. -/
def treatLine (pass : Pass) (number : Nat) (line : SourceLine) (assembler : Assembler arch) :
    Assembler arch × Outcome Unit :=
  match pass with
  | .reserve =>
      let (layout, outcome) := assembler.layout.treatLine line
      (assembler.withLayout layout, outcome)
  | .emit =>
      let (image, outcome) := Image.treatLine assembler.labels number line assembler.image
      (assembler.withImage image, outcome)

/-- Goes through the lines of a program from the first cell on. -/
def goThrough (assembler : Assembler arch) (pass : Pass) (lines : List SourceLine) :
    PassResult (Assembler arch) :=
  passLines (treatLine pass) { assembler with cursor := arch.cell 0 } 0 lines

/-- Puts a build into a machine and resets it; events are held back meanwhile. -/
def commit (assembler : Assembler arch) (machine : Machine arch) : Machine arch :=
  ((machine.startQueue.writeImage assembler.memory).setLabels assembler.labelTexts).reset.flush

/-- Builds a program, and puts it into the machine if there were no problems. -/
def assemble {before : Architecture} (assembler : Assembler before) (machine : Machine arch)
    (source : String) : Assembled arch :=
  let lines := SourceLine.ofSource source
  let first := (assembler.clear arch).goThrough .reserve lines
  if first.failed then ⟨first.errors, first.fault, first.state, machine⟩
  else
    let second := first.state.goThrough .emit lines
    if second.failed then ⟨second.errors, second.fault, second.state, machine⟩
    else ⟨[], none, second.state, second.state.commit machine⟩

/-! ## Asking for the last build -/

/-- The label at an address as it was written. -/
def label? (assembler : Assembler arch) (address : Nat) : Option String :=
  assembler.labelTexts[address]?.filter fun label => !label.isEmpty

/-- The line that gave the value of an address. -/
def line? (assembler : Assembler arch) (address : Nat) : Option Nat :=
  assembler.sourceMap.line? address

/-- The first address whose value a line gave. -/
def address? (assembler : Assembler arch) (line : Nat) : Option Nat :=
  assembler.sourceMap.address? line

end Assembler

end ClassroomCpu.Assembly
