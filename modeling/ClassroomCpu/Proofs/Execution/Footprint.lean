import ClassroomCpu.Execution.Step
import ClassroomCpu.Proofs.Assembly.Passes
import ClassroomCpu.Proofs.Execution.Ends
import ClassroomCpu.Proofs.Machine.Frame

/-!
# Footprints

A footprint says which parts of a machine may be changed.  What stays within a
footprint step by step stays within it as a whole, so that it can be followed
along an instruction.  Texts and labels are in no footprint, and flags and
counts are in all of them.
-/

namespace ClassroomCpu

open Assembly (cellsFrom)

variable {arch : Architecture}

/-- The parts of a machine that may be changed. -/
structure Footprint (arch : Architecture) where
  memory : Fin arch.memorySize → Prop
  registers : Fin arch.registers.length → Prop
  /-- The only cell of the stack. -/
  stack : Option (Fin arch.stackSize)
  running : Prop

namespace Footprint

/-- The footprint with another cell of the stack. -/
def pushing (footprint : Footprint arch) (cell : Option (Fin arch.stackSize)) : Footprint arch :=
  { footprint with stack := cell }

/-- What differs between two machines lies in the footprint. -/
structure Covers (footprint : Footprint arch) (machine after : Machine arch) : Prop where
  memory : ∀ cell, after.memory.get cell ≠ machine.memory.get cell → footprint.memory cell
  registers : ∀ index, after.register index ≠ machine.register index → footprint.registers index
  stack : ∀ cell, after.stack.get cell ≠ machine.stack.get cell → footprint.stack = some cell
  running : after.running ≠ machine.running → footprint.running
  texts : after.texts = machine.texts
  labels : after.labels = machine.labels

namespace Covers

variable {footprint : Footprint arch} {machine between after : Machine arch}

theorem refl (machine : Machine arch) : footprint.Covers machine machine where
  memory _ changed := absurd rfl changed
  registers _ changed := absurd rfl changed
  stack _ changed := absurd rfl changed
  running changed := absurd rfl changed
  texts := rfl
  labels := rfl

theorem trans (first : footprint.Covers machine between)
    (second : footprint.Covers between after) : footprint.Covers machine after where
  memory cell changed := by
    by_cases same : between.memory.get cell = machine.memory.get cell
    · exact second.memory cell (same ▸ changed)
    · exact first.memory cell same
  registers index changed := by
    by_cases same : between.register index = machine.register index
    · exact second.registers index (same ▸ changed)
    · exact first.registers index same
  stack cell changed := by
    by_cases same : between.stack.get cell = machine.stack.get cell
    · exact second.stack cell (same ▸ changed)
    · exact first.stack cell same
  running changed := by
    by_cases same : between.running = machine.running
    · exact second.running (same ▸ changed)
    · exact first.running same
  texts := second.texts.trans first.texts
  labels := second.labels.trans first.labels

/-! ## Single changes -/

theorem poke {address : Nat} (allowed : footprint.memory (arch.cell address))
    (machine : Machine arch) (value : Int) :
    footprint.Covers machine (machine.poke address value) where
  memory cell changed := by
    by_cases same : arch.cell address = cell
    · rwa [← same]
    · exact absurd (get_set_of_ne same) changed
  registers _ changed := absurd rfl changed
  stack _ changed := absurd rfl changed
  running changed := absurd rfl changed
  texts := rfl
  labels := rfl

theorem pokeStack {index : Nat} (allowed : footprint.stack = Machine.stackCell? arch index)
    (machine : Machine arch) (value : Int) :
    footprint.Covers machine (machine.pokeStack index value) := by
  unfold Machine.pokeStack
  split
  · rename_i cell found
    refine ⟨fun _ changed => absurd rfl changed, fun _ changed => absurd rfl changed,
      fun other changed => ?_, fun changed => absurd rfl changed, rfl, rfl⟩
    by_cases same : cell = other
    · rw [allowed, found, same]
    · exact absurd (get_set_of_ne same) changed
  · exact refl machine

theorem setRegister {index : Fin arch.registers.length} (allowed : footprint.registers index)
    (machine : Machine arch) (value : Int) :
    footprint.Covers machine (machine.setRegister index value) where
  memory _ changed := absurd rfl changed
  registers other changed := by
    by_cases same : index = other
    · rwa [← same]
    · exact absurd (get_set_of_ne same) changed
  stack _ changed := absurd rfl changed
  running changed := absurd rfl changed
  texts := rfl
  labels := rfl

theorem setRegister? {index : Option (Fin arch.registers.length)}
    (allowed : ∀ place, index = some place → footprint.registers place)
    (machine : Machine arch) (value : Int) :
    footprint.Covers machine (machine.setRegister? value index) := by
  cases index with
  | none => exact refl machine
  | some place => exact setRegister (allowed place rfl) machine value

theorem setRunning (allowed : footprint.running) (machine : Machine arch) (value : Bool) :
    footprint.Covers machine (machine.setRunning value) where
  memory _ changed := absurd rfl changed
  registers _ changed := absurd rfl changed
  stack _ changed := absurd rfl changed
  running _ := allowed
  texts := rfl
  labels := rfl

/-- Flags and counts may always be changed. -/
theorem of_same (memory : after.memory = machine.memory)
    (registers : after.registers = machine.registers) (stack : after.stack = machine.stack)
    (running : after.running = machine.running) (texts : after.texts = machine.texts)
    (labels : after.labels = machine.labels) : footprint.Covers machine after where
  memory _ changed := absurd (by rw [memory]) changed
  registers _ changed := absurd (by rw [Machine.register, registers, Machine.register]) changed
  stack _ changed := absurd (by rw [stack]) changed
  running changed := absurd running changed
  texts := texts
  labels := labels

theorem setCode (machine : Machine arch) (code : FlagCode) (value : Bool) :
    footprint.Covers machine (machine.setCode code value) := by
  unfold Machine.setCode
  split
  · exact of_same rfl rfl rfl rfl rfl rfl
  · exact refl machine

end Covers

end Footprint

/-! ## Computations -/

namespace Exec

variable {α β : Type}

/-- What a computation that ends changes at the machine lies in the footprint. -/
def Within (footprint : Footprint arch) (computation : Exec arch α) (machine : Machine arch) :
    Prop :=
  ∀ result after, computation machine = .ok result after → footprint.Covers machine after

namespace Within

variable {footprint : Footprint arch} {machine : Machine arch}

theorem of_pure (result : α) : Within footprint (pure result) machine := by
  rintro _ _ ⟨⟩
  exact .refl machine

theorem of_get : Within footprint get machine := by
  rintro _ _ ⟨⟩
  exact .refl machine

theorem of_throw (fault : Fault) : Within footprint (throw fault : Exec arch α) machine :=
  nofun

theorem of_modify {change : Machine arch → Machine arch}
    (covers : footprint.Covers machine (change machine)) :
    Within footprint (modify change) machine := by
  rintro _ _ ⟨⟩
  exact covers

theorem bind {computation : Exec arch α} {next : α → Exec arch β}
    (first : Within footprint computation machine)
    (second : ∀ result between, computation machine = .ok result between →
      Within footprint (next result) between) :
    Within footprint (computation >>= next) machine := by
  intro result after ends
  cases here : computation machine with
  | ok middle between =>
      rw [bind_of_ok here] at ends
      exact (first middle between here).trans (second middle between here result after ends)
  | error fault between => simp [Bind.bind, EStateM.bind, here] at ends

end Within

/-- What the computation changes lies in the footprint, a single cell of the stack apart. -/
def WithinPush (footprint : Footprint arch) (computation : Exec arch α) (machine : Machine arch) :
    Prop :=
  ∃ cell, Within (footprint.pushing cell) computation machine

namespace WithinPush

variable {footprint : Footprint arch} {machine : Machine arch} {computation : Exec arch α}

theorem of_within (within : ∀ cell, Within (footprint.pushing cell) computation machine) :
    WithinPush footprint computation machine :=
  ⟨none, within none⟩

/-- The cell may be written behind something that leaves the stack alone. -/
theorem bind_left {next : α → Exec arch β}
    (first : ∀ cell, Within (footprint.pushing cell) computation machine)
    (second : ∀ result between, computation machine = .ok result between →
      WithinPush footprint (next result) between) :
    WithinPush footprint (computation >>= next) machine := by
  cases here : computation machine with
  | ok middle between =>
      obtain ⟨cell, rest⟩ := second middle between here
      refine ⟨cell, (first cell).bind fun result other same => ?_⟩
      rw [here] at same
      cases same
      exact rest
  | error fault between =>
      exact ⟨none, (first none).bind fun result other same => by simp [here] at same⟩

/-- The cell may be written in front of something that leaves the stack alone. -/
theorem bind {next : α → Exec arch β} (first : WithinPush footprint computation machine)
    (second : ∀ cell result between, computation machine = .ok result between →
      Within (footprint.pushing cell) (next result) between) :
    WithinPush footprint (computation >>= next) machine := by
  obtain ⟨cell, within⟩ := first
  exact ⟨cell, within.bind (second cell)⟩

end WithinPush

/-! ## Reading -/

section Pieces

variable {footprint : Footprint arch} (machine : Machine arch)

theorem within_readByte (address : Nat) : Within footprint (readByte address) machine :=
  .bind (.of_modify (.of_same rfl rfl rfl rfl rfl rfl)) fun _ _ _ =>
    .bind .of_get fun _ _ _ => .of_pure _

theorem within_readBytes (address count : Nat) :
    Within footprint (readBytes address count) machine := by
  induction count generalizing address machine with
  | zero => exact .of_pure []
  | succ count induction =>
      exact (within_readByte machine address).bind fun _ between _ =>
        (induction between (address + 1)).bind fun _ _ _ => .of_pure _

theorem within_readAddress (address : Nat) : Within footprint (readAddress address) machine :=
  (within_readBytes machine address _).bind fun _ _ _ => .of_pure _

theorem within_readWord (address : Nat) : Within footprint (readWord address) machine :=
  (within_readBytes machine address _).bind fun _ _ _ => .of_pure _

theorem within_counter : Within footprint counter machine :=
  .bind .of_get fun _ _ _ => .of_pure _

theorem within_status : Within footprint status machine :=
  .bind .of_get fun _ _ _ => .of_pure _

/-! ## Writing -/

theorem within_writeBytes {address : Nat} {bytes : List UInt8}
    (allowed : ∀ cell ∈ cellsFrom arch address bytes.length, footprint.memory cell) :
    Within footprint (writeBytes address bytes) machine := by
  induction bytes generalizing address machine with
  | nil => exact .of_pure ()
  | cons byte bytes induction =>
      simp only [List.length_cons, cellsFrom, List.forall_mem_cons] at allowed
      have counted : footprint.Covers machine machine.countAccess :=
        .of_same rfl rfl rfl rfl rfl rfl
      exact .bind (.of_modify (counted.trans (.poke allowed.1 _ _))) fun _ between _ =>
        induction between allowed.2

theorem within_writeByte {address : Nat} (allowed : footprint.memory (arch.cell address))
    (value : UInt8) : Within footprint (writeByte address value) machine := by
  have counted : footprint.Covers machine machine.countAccess := .of_same rfl rfl rfl rfl rfl rfl
  exact .of_modify (counted.trans (.poke allowed _ _))

theorem within_setCounter (allowed : footprint.registers arch.counter) (value : Int) :
    Within footprint (setCounter value) machine :=
  .of_modify (.setRegister allowed machine value)

theorem within_setCode (code : FlagCode) (value : Bool) :
    Within footprint (setCode code value) machine :=
  .of_modify (.setCode machine code value)

theorem within_setSignAndZero (width value : Nat) :
    Within footprint (setSignAndZero width value) machine :=
  (within_setCode machine _ _).bind fun _ between _ => within_setCode between _ _

theorem within_setRunning (allowed : footprint.running) (value : Bool) :
    Within footprint (setRunning value) machine :=
  .of_modify (.setRunning allowed machine value)

theorem within_fetchByte (allowed : footprint.registers arch.counter) :
    Within footprint fetchByte machine :=
  (within_counter machine).bind fun _ between _ => (within_readByte between _).bind fun _ next _ =>
    (within_setCounter next allowed _).bind fun _ _ _ => .of_pure _

end Pieces

end Exec

end ClassroomCpu
