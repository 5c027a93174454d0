import ClassroomCpu.Assembly.SourceLine
import ClassroomCpu.Assembly.Statement
import ClassroomCpu.Machine.Reset
import ClassroomCpu.SourceMap

/-!
# Builds

A program is gone through twice.  The first pass collects the labels and
reserves the cells of every line; the second one, which knows all labels,
emits the bytes.  Each pass goes on after a line with a problem, so that every
line can report its own, but the second pass only takes place if the first one
met none.

A build depends on the architecture and the program alone.  It is put into a
machine only if there were no problems: cells whose value changes are written,
labels are set, and the machine is reset, while events are held back.
-/

namespace ClassroomCpu.Assembly

/-! ## Passes over the lines -/

/-- What a pass has gathered. -/
structure PassResult (State : Type) where
  state : State
  /-- The problems that were met, in the order of the lines. -/
  errors : List SourceError
  /-- The fault that ended the pass early. -/
  fault : Option Fault

/--
Goes through lines, the first of which has the given number.  A line gives the
state after it, whether or not it fails; a fault ends the pass.
-/
def passLines {State : Type} (treat : Nat → SourceLine → State → State × Outcome Unit)
    (state : State) : Nat → List SourceLine → PassResult State
  | _, [] => ⟨state, [], none⟩
  | number, line :: lines =>
      match treat number line state with
      | (after, .ok ()) => passLines treat after (number + 1) lines
      | (after, .error (.fault fault)) => ⟨after, [], some fault⟩
      | (after, .error (.problem problem)) =>
          let result := passLines treat after (number + 1) lines
          { result with errors := ⟨number, problem⟩ :: result.errors }

/-! ## The first pass -/

/-- What the first pass finds out. -/
structure Layout (arch : Architecture) where
  /-- The cell for the next byte. -/
  cursor : Fin arch.memorySize
  labels : LabelTable
  /-- The first label of each cell as it was written; empty if there is none. -/
  labelTexts : Vector String arch.memorySize
  /-- The cells that a line has taken. -/
  reserved : Vector Bool arch.memorySize

namespace Layout

variable {arch : Architecture}

/-- The layout before the first line. -/
def start (arch : Architecture) : Layout arch where
  cursor := arch.cell 0
  labels := []
  labelTexts := Vector.replicate _ ""
  reserved := Vector.replicate _ false

/-- Defines a label where the next byte goes. -/
def defineLabel (layout : Layout arch) (label : String) : Layout arch × Outcome Unit :=
  if !isLabel label.toList then (layout, reject (.invalidLabel label))
  else if (layout.labels.find? label).isSome then (layout, reject (.duplicateLabel label))
  else
    let labelTexts :=
      if (layout.labelTexts.get layout.cursor).isEmpty then
        layout.labelTexts.set layout.cursor label
      else layout.labelTexts
    ({ layout with labels := layout.labels.define label layout.cursor, labelTexts }, .ok ())

/-- Takes `count` cells from an address on, up to the first one that is taken already. -/
def reserveFrom (layout : Layout arch) (address : Nat) : Nat → Layout arch × Outcome Unit
  | 0 => (layout, .ok ())
  | count + 1 =>
      let cell := arch.cell address
      if layout.reserved.get cell then (layout, reject (.memoryOverlap cell))
      else
        { layout with reserved := layout.reserved.set cell true }.reserveFrom (address + 1) count

@[simp] theorem reserveFrom_zero (layout : Layout arch) (address : Nat) :
    layout.reserveFrom address 0 = (layout, .ok ()) :=
  rfl

theorem reserveFrom_succ (layout : Layout arch) (address count : Nat) :
    layout.reserveFrom address (count + 1) =
      if layout.reserved.get (arch.cell address) then
        (layout, reject (.memoryOverlap (arch.cell address)))
      else
        { layout with
          reserved := layout.reserved.set (arch.cell address) true
            (arch.cell address).isLt }.reserveFrom (address + 1) count :=
  rfl

/-- Takes the cells of some bytes and moves behind them. -/
def reserve (layout : Layout arch) (count : Nat) : Layout arch × Outcome Unit :=
  match layout.reserveFrom layout.cursor count with
  | (layout, .ok ()) => ({ layout with cursor := arch.cell (layout.cursor + count) }, .ok ())
  | failed => failed

/-- Does what a statement says about the layout. -/
def treatStatement (layout : Layout arch) (statement : String) : Layout arch × Outcome Unit :=
  if statement.isEmpty then (layout, .ok ())
  else
    match statementEffect ⟨.reserve, layout.labels, layout.cursor⟩ arch statement with
    | .ok (.origin address) => ({ layout with cursor := address }, .ok ())
    | .ok (.data bytes) => layout.reserve bytes.length
    | .error failure => (layout, .error failure)

/-- Treats a line in the first pass. -/
def treatLine (line : SourceLine) (layout : Layout arch) : Layout arch × Outcome Unit :=
  match line.label with
  | none => layout.treatStatement line.statement
  | some label =>
      match layout.defineLabel label with
      | (layout, .ok ()) => layout.treatStatement line.statement
      | failed => failed

end Layout

/-! ## The second pass -/

/-- What the second pass emits. -/
structure Image (arch : Architecture) where
  /-- The cell for the next byte. -/
  cursor : Fin arch.memorySize
  memory : Vector UInt8 arch.memorySize
  sourceMap : SourceMap

namespace Image

variable {arch : Architecture}

/-- The image before the first line. -/
def start (arch : Architecture) : Image arch where
  cursor := arch.cell 0
  memory := Vector.replicate _ 0
  sourceMap := .empty

/-- Puts the bytes of a line at an address. -/
def putFrom (image : Image arch) (line address : Nat) : List UInt8 → Image arch
  | [] => image
  | byte :: bytes =>
      let cell := arch.cell address
      { image with
        memory := image.memory.set cell byte
        sourceMap := image.sourceMap.insert cell line }.putFrom line (address + 1) bytes

@[simp] theorem putFrom_nil (image : Image arch) (line address : Nat) :
    image.putFrom line address [] = image :=
  rfl

theorem putFrom_cons (image : Image arch) (line address : Nat) (byte : UInt8)
    (bytes : List UInt8) :
    image.putFrom line address (byte :: bytes) =
      { image with
        memory := image.memory.set (arch.cell address) byte (arch.cell address).isLt
        sourceMap := image.sourceMap.insert (arch.cell address) line }.putFrom line
          (address + 1) bytes :=
  rfl

/-- Puts the bytes of a line and moves behind them. -/
def put (image : Image arch) (line : Nat) (bytes : List UInt8) : Image arch :=
  let image := image.putFrom line image.cursor bytes
  { image with cursor := arch.cell (image.cursor + bytes.length) }

/-- Treats a line in the second pass. -/
def treatLine (labels : LabelTable) (number : Nat) (line : SourceLine) (image : Image arch) :
    Image arch × Outcome Unit :=
  if line.statement.isEmpty then (image, .ok ())
  else
    match statementEffect ⟨.emit, labels, image.cursor⟩ arch line.statement with
    | .ok (.origin address) => ({ image with cursor := address }, .ok ())
    | .ok (.data bytes) => (image.put number bytes, .ok ())
    | .error failure => (image, .error failure)

end Image

/-! ## Builds -/

/-- What has become of a program. -/
structure Build (arch : Architecture) where
  layout : Layout arch
  image : Image arch
  /-- The problems of the first pass that met any. -/
  errors : List SourceError
  /-- The fault that ended the build. -/
  fault : Option Fault

namespace Build

variable {arch : Architecture}

/-- The build of no program. -/
def empty (arch : Architecture) : Build arch :=
  ⟨.start arch, .start arch, [], none⟩

/-- Builds the lines of a program. -/
def ofLines (arch : Architecture) (lines : List SourceLine) : Build arch :=
  let first := passLines (fun _ line layout => layout.treatLine line) (Layout.start arch) 0 lines
  if first.fault.isSome || !first.errors.isEmpty then
    ⟨first.state, .start arch, first.errors, first.fault⟩
  else
    let second := passLines (Image.treatLine first.state.labels) (Image.start arch) 0 lines
    ⟨first.state, second.state, second.errors, second.fault⟩

/-- Builds a program. -/
def ofSource (arch : Architecture) (source : String) : Build arch :=
  ofLines arch (SourceLine.ofSource source)

/-- Whether the build has an image for a machine. -/
def succeeded (build : Build arch) : Bool :=
  build.fault.isNone && build.errors.isEmpty

/-- The labels with their addresses under their names in upper case. -/
def labels (build : Build arch) : LabelTable :=
  build.layout.labels

/-- The label at an address as it was written. -/
def label? (build : Build arch) (address : Nat) : Option String :=
  build.layout.labelTexts[address]?.filter fun label => !label.isEmpty

/-- Which line gave which cell its value. -/
def sourceMap (build : Build arch) : SourceMap :=
  build.image.sourceMap

end Build

end ClassroomCpu.Assembly

namespace ClassroomCpu.Machine

variable {arch : Architecture}

/-- Writes those of the given values that memory does not hold yet. -/
def writeImage (machine : Machine arch) (memory : Vector UInt8 arch.memorySize) :
    Machine arch :=
  (List.finRange arch.memorySize).foldl (fun machine (cell : Fin arch.memorySize) =>
    if machine.peek cell = memory.get cell then machine
    else machine.poke cell (memory.get cell).toNat) machine

/-- Sets the labels of all cells. -/
def setLabels (machine : Machine arch) (labels : Vector String arch.memorySize) :
    Machine arch :=
  (List.finRange arch.memorySize).foldl
    (fun machine cell => machine.setLabel cell (labels.get cell)) machine

/-- Puts a build into the machine and resets it; events are held back meanwhile. -/
def install (machine : Machine arch) (build : Assembly.Build arch) : Machine arch :=
  ((machine.startQueue.writeImage build.image.memory).setLabels build.layout.labelTexts).reset.flush

/-- Builds a program, and puts it into the machine if there were no problems. -/
def assemble (machine : Machine arch) (source : String) : Assembly.Build arch × Machine arch :=
  let build := Assembly.Build.ofSource arch source
  (build, if build.succeeded then machine.install build else machine)

end ClassroomCpu.Machine
