import ClassroomCpu.Architecture.Basic
import ClassroomCpu.Event.Hub

/-!
# Machines

The state of a machine, and the operations that read and change one part of
it.  Every change is published as an event that carries the value as it was
stored, after it was cut down to its place.
-/

namespace ClassroomCpu

/-- The state of a machine. -/
structure Machine (arch : Architecture) where
  /-- The values of the registers. -/
  registers : Vector Nat arch.registers.length
  /-- The values of the flags. -/
  flags : Vector Bool arch.flags.length
  memory : Vector UInt8 arch.memorySize
  /-- The cells of the stack apart from memory. -/
  stack : Vector UInt8 arch.stackSize
  /-- The instruction that starts at each memory cell, as text. -/
  texts : Vector String arch.memorySize
  /-- The label that the last build put at each memory cell. -/
  labels : Vector String arch.memorySize
  running : Bool
  /-- The number of executed instructions. -/
  instructionCount : Nat
  /-- The number of memory accesses by instructions. -/
  accessCount : Nat
  /-- The listeners. -/
  hub : Hub

namespace Machine

variable {arch : Architecture}

/-- A machine with empty memory that nobody listens to. -/
def new (arch : Architecture) : Machine arch where
  registers := Vector.replicate _ 0
  flags := Vector.ofFn fun index => (arch.flags.get index).default
  memory := Vector.replicate _ 0
  stack := Vector.replicate _ 0
  texts := Vector.replicate _ ""
  labels := Vector.replicate _ ""
  running := false
  instructionCount := 0
  accessCount := 0
  hub := .empty

/-- Tells the listeners about a change. -/
def publish (machine : Machine arch) (event : Event) : Machine arch :=
  { machine with hub := machine.hub.publish event }

/-! ## Memory -/

/-- The value of the memory cell that an address means. -/
def peek (machine : Machine arch) (address : Nat) : UInt8 :=
  machine.memory.get (arch.cell address)

/-- Stores the low byte of a number in the memory cell that an address means. -/
def poke (machine : Machine arch) (address : Nat) (value : Int) : Machine arch :=
  let cell := arch.cell address
  let byte := UInt8.ofInt value
  { machine with memory := machine.memory.set cell byte }.publish (.memory cell byte)

/-- The values of neighbouring memory cells. -/
def peekBytes (machine : Machine arch) (address : Nat) : Nat → List UInt8
  | 0 => []
  | count + 1 => machine.peek address :: machine.peekBytes (address + 1) count

/-- The number in neighbouring memory cells. -/
def peekNumber (machine : Machine arch) (order : ByteOrder) (width address : Nat) : Nat :=
  order.decode (machine.peekBytes address width)

/-! ## The stack apart from memory -/

/-- The stack cell that an index means; none if there is no stack. -/
def stackCell? (arch : Architecture) (index : Nat) : Option (Fin arch.stackSize) :=
  if there : 0 < arch.stackSize then
    some ⟨index &&& (arch.stackSize - 1),
      Nat.lt_of_le_of_lt Nat.and_le_right (Nat.sub_lt there Nat.one_pos)⟩
  else none

/-- The value of the stack cell that an index means; zero if there is no stack. -/
def peekStack (machine : Machine arch) (index : Nat) : UInt8 :=
  match stackCell? arch index with
  | some cell => machine.stack.get cell
  | none => 0

/-- Stores the low byte of a number in the stack cell that an index means, if there is a stack. -/
def pokeStack (machine : Machine arch) (index : Nat) (value : Int) : Machine arch :=
  match stackCell? arch index with
  | some cell =>
      let byte := UInt8.ofInt value
      { machine with stack := machine.stack.set cell byte }.publish (.stack cell byte)
  | none => machine

/-! ## Registers -/

/-- The value of a register. -/
def register (machine : Machine arch) (index : Fin arch.registers.length) : Nat :=
  machine.registers.get index

/-- Puts a number into a register, which keeps the low bits. -/
def setRegister (machine : Machine arch) (index : Fin arch.registers.length) (value : Int) :
    Machine arch :=
  let spec := arch.registers.get index
  let held := spec.hold value
  { machine with registers := machine.registers.set index held }.publish
    (.register spec.name held)

/-- The value of a register, or zero if there is none. -/
def register? (machine : Machine arch) : Option (Fin arch.registers.length) → Nat
  | some index => machine.register index
  | none => 0

/-- Puts a number into a register, if there is one. -/
def setRegister? (machine : Machine arch) (value : Int) :
    Option (Fin arch.registers.length) → Machine arch
  | some index => machine.setRegister index value
  | none => machine

/-- The program counter. -/
def counter (machine : Machine arch) : Nat :=
  machine.register arch.counter

/-- Sets the program counter. -/
def setCounter (machine : Machine arch) (value : Int) : Machine arch :=
  machine.setRegister arch.counter value

/-! ## Flags -/

/-- The value of a flag. -/
def flag (machine : Machine arch) (index : Fin arch.flags.length) : Bool :=
  machine.flags.get index

/-- Sets a flag. -/
def setFlag (machine : Machine arch) (index : Fin arch.flags.length) (value : Bool) :
    Machine arch :=
  { machine with flags := machine.flags.set index value }.publish
    (.flag (arch.flags.get index).name value)

/-- Whether the machine has a flag for a condition code. -/
def hasFlag (arch : Architecture) (code : FlagCode) : Bool :=
  (arch.flagWithCode? code).isSome

/-- A condition code, which is clear on a machine without a flag for it. -/
def code (machine : Machine arch) (code : FlagCode) : Bool :=
  match arch.flagWithCode? code with
  | some index => machine.flag index
  | none => false

/-- Sets a condition code on a machine with a flag for it. -/
def setCode (machine : Machine arch) (code : FlagCode) (value : Bool) : Machine arch :=
  match arch.flagWithCode? code with
  | some index => machine.setFlag index value
  | none => machine

/-- All condition codes. -/
def status (machine : Machine arch) : Status where
  negative := machine.code .negative
  zero := machine.code .zero
  carry := machine.code .carry
  borrow := machine.code .borrow
  overflow := machine.code .overflow

/-! ## Running and counting -/

/-- Starts or stops the machine. -/
def setRunning (machine : Machine arch) (value : Bool) : Machine arch :=
  { machine with running := value }.publish (.running value)

/-- Sets the number of executed instructions. -/
def setInstructionCount (machine : Machine arch) (count : Nat) : Machine arch :=
  { machine with instructionCount := count }.publish (.instructionCount count)

/-- Sets the number of memory accesses. -/
def setAccessCount (machine : Machine arch) (count : Nat) : Machine arch :=
  { machine with accessCount := count }.publish (.accessCount count)

/-- Counts one more executed instruction. -/
def countInstruction (machine : Machine arch) : Machine arch :=
  machine.setInstructionCount (machine.instructionCount + 1)

/-- Counts one more memory access. -/
def countAccess (machine : Machine arch) : Machine arch :=
  machine.setAccessCount (machine.accessCount + 1)

/-- Sets both counts to zero. -/
def clearCounts (machine : Machine arch) : Machine arch :=
  (machine.setInstructionCount 0).setAccessCount 0

/-! ## Instruction texts and labels -/

/-- The instruction text of the memory cell that an address means. -/
def text (machine : Machine arch) (address : Nat) : String :=
  machine.texts.get (arch.cell address)

/-- Sets the instruction text of a memory cell; only a new text is an event. -/
def setText (machine : Machine arch) (cell : Fin arch.memorySize) (text : String) :
    Machine arch :=
  if machine.texts.get cell = text then machine
  else { machine with texts := machine.texts.set cell text }.publish (.instructionText cell text)

/-- The label of the memory cell that an address means. -/
def label (machine : Machine arch) (address : Nat) : String :=
  machine.labels.get (arch.cell address)

/-- Sets the label of a memory cell; only a new label is an event. -/
def setLabel (machine : Machine arch) (cell : Fin arch.memorySize) (label : String) :
    Machine arch :=
  if machine.labels.get cell = label then machine
  else { machine with labels := machine.labels.set cell label }.publish (.label cell label)

/-! ## Listeners -/

/-- Registers a listener for a topic. -/
def subscribe (machine : Machine arch) (topic : String) : Subscription × Machine arch :=
  let (subscription, hub) := machine.hub.subscribe topic
  (subscription, { machine with hub })

/-- Removes a listener, and says whether it was there. -/
def unsubscribe (machine : Machine arch) (subscription : Subscription) : Bool × Machine arch :=
  let (removed, hub) := machine.hub.unsubscribe subscription
  (removed, { machine with hub })

/-- Holds events back from now on. -/
def startQueue (machine : Machine arch) : Machine arch :=
  { machine with hub := machine.hub.startQueue }

/-- Delivers the events that were held back. -/
def flush (machine : Machine arch) : Machine arch :=
  { machine with hub := machine.hub.flush }

/-- The machine with an empty record of deliveries. -/
def forgetDeliveries (machine : Machine arch) : Machine arch :=
  { machine with hub := machine.hub.forget }

end Machine

end ClassroomCpu
