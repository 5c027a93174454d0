import ClassroomCpu.Proofs.Event.Publication
import ClassroomCpu.Proofs.MemoryImage.Takeover

/-!
# The events of changed cells

Memory, labels and texts are brought up to date cell by cell, and only a cell
that changes is told of.  One that is brought up to date once is told of once at
most: all that is told is one event for each cell that differs in the end, in the
order in which the cells were gone through.
-/

namespace ClassroomCpu

variable {α : Type} [DecidableEq α] {size : Nat}

/-- The event of a cell whose value differs; none if it is the same. -/
def changed (event : Fin size → α → Event) (before after : Vector α size) (cell : Fin size) :
    List Event :=
  if before.get cell = after.get cell then [] else [event cell (after.get cell)]

/-- One event for each cell whose value differs, in ascending order of the cells. -/
def changes (event : Fin size → α → Event) (before after : Vector α size) : List Event :=
  (List.finRange size).flatMap (changed event before after)

theorem changes_self (event : Fin size → α → Event) (cells : Vector α size) :
    changes event cells cells = [] := by
  simp [changes, changed]

/-- What is told of a cell depends on what the cell held. -/
theorem changed_congr {event : Fin size → α → Event} {before other after : Vector α size}
    {cell : Fin size} (same : other.get cell = before.get cell) :
    changed event other after cell = changed event before after cell := by
  rw [changed, changed, same]

namespace Machine

variable {arch : Architecture} {machine : Machine arch}

/-! ## Parts of the state -/

section Parts

variable {other : Machine arch} (same : machine.silent = other)
include same

theorem memory_of_silent {memory : Vector UInt8 arch.memorySize} (held : other.memory = memory) :
    machine.memory = memory := by
  rw [← held, ← same]
  rfl

theorem labels_of_silent {labels : Vector String arch.memorySize} (held : other.labels = labels) :
    machine.labels = labels := by
  rw [← held, ← same]
  rfl

theorem texts_of_silent {texts : Vector String arch.memorySize} (held : other.texts = texts) :
    machine.texts = texts := by
  rw [← held, ← same]
  rfl

end Parts

/-! ## What a change tells -/

/-- The events of the memory cells that get another value. -/
def memoryChanges (before after : Machine arch) : List Event :=
  changes (fun cell => .memory cell) before.memory after.memory

/-- The events of the cells that get another label. -/
def labelChanges (before after : Machine arch) : List Event :=
  changes (fun cell => .label cell) before.labels after.labels

/-- The events of the cells that get another text. -/
def textChanges (before after : Machine arch) : List Event :=
  changes (fun cell => .instructionText cell) before.texts after.texts

/-- At a machine the change is the same whoever listens, and tells of itself by these events. -/
def Announces (change : Machine arch → Machine arch) (machine : Machine arch)
    (events : List Event) : Prop :=
  ∀ hub, change (machine.withHub hub) = (change machine).withHub (hub.publishAll events)

namespace Announces

variable {change further : Machine arch → Machine arch} {events more : List Event}

theorem of_id (machine : Machine arch) : Announces id machine [] :=
  fun _ => rfl

theorem trans (first : Announces change machine events)
    (second : Announces further (change machine) more) :
    Announces (further ∘ change) machine (events ++ more) := by
  intro hub
  simp only [Function.comp_apply, first hub, second _, Hub.publishAll_append]

/-- What the machine's own hub hears of the change. -/
theorem hub_eq (announces : Announces change machine events) :
    (change machine).hub = machine.hub.publishAll events :=
  congrArg hub (announces machine.hub)

/--
Changes one after the other tell what each of them would tell at the start, as long as none of
them has an influence on what another one tells.
-/
theorem foldl {Index : Type} {step : Machine arch → Index → Machine arch}
    {told : Machine arch → Index → List Event}
    (each : ∀ machine index, Announces (fun machine => step machine index) machine
      (told machine index))
    (apart : ∀ machine index other, index ≠ other → told (step machine index) other =
      told machine other)
    {indices : List Index} (distinct : indices.Nodup) (machine : Machine arch) :
    Announces (fun machine => indices.foldl step machine) machine
      (indices.flatMap (told machine)) := by
  induction indices generalizing machine with
  | nil => exact of_id machine
  | cons index indices induction =>
      obtain ⟨noMore, distinct⟩ := List.nodup_cons.mp distinct
      have later : indices.flatMap (told (step machine index)) =
          indices.flatMap (told machine) := by
        apply List.flatMap_congr
        intro other member
        exact apart machine index other fun same => noMore (same ▸ member)
      have rest := induction distinct (step machine index)
      rw [later] at rest
      exact (each machine index).trans rest

end Announces

/-! ## One cell -/

/-- Writes a value unless memory holds it already. -/
def writeCell (machine : Machine arch) (cell : Fin arch.memorySize) (value : UInt8) :
    Machine arch :=
  if machine.peek cell = value then machine else machine.poke cell value.toNat

theorem silent_writeCell (machine : Machine arch) (cell : Fin arch.memorySize) (value : UInt8) :
    (machine.writeCell cell value).silent =
      { machine.silent with memory := machine.memory.set cell value cell.isLt } := by
  rw [writeCell]
  split
  · rename_i already
    rw [peek, arch.cell_val] at already
    rw [← already, set_get]
    rfl
  · simp only [poke, arch.cell_val, ofInt_toNat]
    rfl

theorem announces_writeCell (machine : Machine arch) (memory : Vector UInt8 arch.memorySize)
    (cell : Fin arch.memorySize) :
    Announces (fun machine => machine.writeCell cell (memory.get cell)) machine
      (changed (fun cell => .memory cell) machine.memory memory cell) := by
  intro hub
  have deaf : (machine.withHub hub).peek cell = machine.peek cell := rfl
  have held : machine.peek cell = machine.memory.get cell := by rw [peek, arch.cell_val]
  simp only [writeCell, changed, deaf, held]
  split
  · rfl
  · simp only [poke, arch.cell_val, ofInt_toNat]
    rfl

theorem announces_setLabel (machine : Machine arch) (labels : Vector String arch.memorySize)
    (cell : Fin arch.memorySize) :
    Announces (fun machine => machine.setLabel cell (labels.get cell)) machine
      (changed (fun cell => .label cell) machine.labels labels cell) := by
  intro hub
  have deaf : (machine.withHub hub).labels = machine.labels := rfl
  simp only [setLabel, changed, deaf]
  split <;> rfl

theorem announces_setText (machine : Machine arch) (texts : Vector String arch.memorySize)
    (cell : Fin arch.memorySize) :
    Announces (fun machine => machine.setText cell (texts.get cell)) machine
      (changed (fun cell => .instructionText cell) machine.texts texts cell) := by
  intro hub
  have deaf : (machine.withHub hub).texts = machine.texts := rfl
  simp only [setText, changed, deaf]
  split <;> rfl

/-! ## All cells -/

/-- Writing all of memory tells of the cells that get another value. -/
theorem announces_writeImage (machine : Machine arch) (memory : Vector UInt8 arch.memorySize) :
    Announces (fun machine => machine.writeImage memory) machine
      (changes (fun cell => .memory cell) machine.memory memory) := by
  refine Announces.foldl (fun machine cell => announces_writeCell machine memory cell) ?_
    (List.nodup_finRange _) machine
  intro machine cell other apart
  have written := memory_of_silent (machine.silent_writeCell cell (memory.get cell)) rfl
  exact changed_congr ((congrArg (·.get other) written).trans (get_set_of_ne apart))

/-- Setting all labels tells of the cells that get another label. -/
theorem announces_setLabels (machine : Machine arch) (labels : Vector String arch.memorySize) :
    Announces (fun machine => machine.setLabels labels) machine
      (changes (fun cell => .label cell) machine.labels labels) := by
  refine Announces.foldl (fun machine cell => announces_setLabel machine labels cell) ?_
    (List.nodup_finRange _) machine
  intro machine cell other apart
  have written : (machine.setLabel cell (labels.get cell)).labels =
      machine.labels.set cell (labels.get cell) := labels_of_silent (silent_setLabel cell _) rfl
  exact changed_congr ((congrArg (·.get other) written).trans (get_set_of_ne apart))

end Machine

end ClassroomCpu
