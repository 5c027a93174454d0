import ClassroomCpu.Assembly.Build
import ClassroomCpu.Proofs.ByteOrder
import ClassroomCpu.Proofs.Catalog.Registers
import ClassroomCpu.Proofs.Machine.Refresh

/-!
# What a reset leaves of the past

A program is put into a machine by writing all of memory and all labels, and by
a reset, which writes everything else.  Nothing is left of what the machine
held before: even the texts, which are only written where they change, are told
by memory alone.  The listeners are left aside.
-/

namespace ClassroomCpu

/-! ## Writing all cells -/

/-- Writes that reach every cell leave nothing of what the cells held. -/
theorem foldl_eq_of_reached {α Index : Type} {size : Nat} {goal : Vector α size}
    {write : Vector α size → Index → Vector α size} (place : Index → Option (Fin size))
    (writes : ∀ cells index position, (write cells index).get position =
      if place index = some position then goal.get position else cells.get position)
    {indices : List Index} (reached : ∀ position, ∃ index ∈ indices, place index = some position)
    (cells : Vector α size) : indices.foldl write cells = goal := by
  -- Throughout, a position is still to be reached or holds its value already.
  have each : ∀ (indices : List Index) cells position,
      (∃ index ∈ indices, place index = some position) ∨
          cells.get position = goal.get position →
        (indices.foldl write cells).get position = goal.get position := by
    intro indices
    induction indices with
    | nil =>
        intro cells position either
        simpa using either
    | cons index indices induction =>
        intro cells position either
        apply induction
        by_cases here : place index = some position
        · right
          rw [writes, if_pos here]
        · rw [writes, if_neg here]
          rcases either with ⟨other, member, there⟩ | already
          · rcases List.mem_cons.mp member with rfl | later
            · exact absurd there here
            · exact .inl ⟨other, later, there⟩
          · exact .inr already
  exact eq_of_get fun position => each indices cells position (.inl (reached position))

theorem foldl_set_eq {α : Type} {size : Nat} (values : Fin size → α) (cells : Vector α size) :
    (List.finRange size).foldl
        (fun cells position => cells.set position (values position) position.isLt) cells =
      Vector.ofFn values := by
  apply foldl_eq_of_reached some
  · intro cells written read
    have value : (Vector.ofFn values).get read = values read := Vector.getElem_ofFn read.isLt
    rw [get_set, value]
    by_cases same : written = read <;> simp [same]
  · exact fun position => ⟨position, List.mem_finRange position, rfl⟩

theorem ofFn_get {α : Type} {size : Nat} (cells : Vector α size) :
    Vector.ofFn cells.get = cells :=
  eq_of_get fun position => Vector.getElem_ofFn position.isLt

namespace Machine

variable {arch : Architecture}

/-- A part of the state that listeners have nothing to do with. -/
structure IsPart {Part : Type} (part : Machine arch → Part)
    (put : Machine arch → Part → Machine arch) : Prop where
  silent : ∀ machine, part machine.silent = part machine
  part_put : ∀ machine held, part (put machine held) = held
  put_part : ∀ machine, put machine.silent (part machine) = machine.silent
  put_put : ∀ machine first second, put (put machine first) second = put machine second

/-- Changes of one part, one after the other, change that part alone. -/
theorem silent_foldl {Part Index : Type} {part : Machine arch → Part}
    {put : Machine arch → Part → Machine arch} (isPart : IsPart part put)
    {step : Machine arch → Index → Machine arch} {change : Part → Index → Part}
    (each : ∀ machine index,
      (step machine index).silent = put machine.silent (change (part machine) index))
    (indices : List Index) (machine : Machine arch) :
    (indices.foldl step machine).silent =
      put machine.silent (indices.foldl change (part machine)) := by
  induction indices generalizing machine with
  | nil => exact (isPart.put_part machine).symm
  | cons index indices induction =>
      have held : part (step machine index) = change (part machine) index := by
        rw [← isPart.silent, each, isPart.part_put]
      rw [List.foldl_cons, List.foldl_cons, induction, each, held, isPart.put_put]

/-! ## Memory and labels -/

theorem silent_writeImage (machine : Machine arch) (memory : Vector UInt8 arch.memorySize) :
    (machine.writeImage memory).silent = { machine.silent with memory } := by
  have isPart : @IsPart arch _ (·.memory) fun machine memory => { machine with memory } :=
    ⟨fun _ => rfl, fun _ _ => rfl, fun _ => rfl, fun _ _ _ => rfl⟩
  rw [writeImage, silent_foldl isPart, foldl_set_eq, ofFn_get]
  intro machine cell
  split
  · rename_i already
    rw [peek, arch.cell_val] at already
    rw [← already, set_get]
    rfl
  · simp only [poke, arch.cell_val, ofInt_toNat]
    rfl

theorem silent_setLabels (machine : Machine arch) (labels : Vector String arch.memorySize) :
    (machine.setLabels labels).silent = { machine.silent with labels } := by
  have isPart : @IsPart arch _ (·.labels) fun machine labels => { machine with labels } :=
    ⟨fun _ => rfl, fun _ _ => rfl, fun _ => rfl, fun _ _ _ => rfl⟩
  rw [setLabels, silent_foldl isPart, foldl_set_eq, ofFn_get]
  intro machine cell
  rw [setLabel]
  split
  · rename_i already
    rw [← already, set_get]
    rfl
  · rfl

/-! ## Registers, flags and stack -/

theorem silent_resetRegisters (machine : Machine arch) :
    machine.resetRegisters.silent =
      { machine.silent with
        registers := Vector.ofFn fun index => (arch.registers.get index).hold 0 } := by
  have isPart : @IsPart arch _ (·.registers)
      fun machine registers => { machine with registers } :=
    ⟨fun _ => rfl, fun _ _ => rfl, fun _ => rfl, fun _ _ _ => rfl⟩
  rw [resetRegisters, ← foldl_set_eq _ machine.registers]
  exact silent_foldl isPart (fun _ _ => rfl) _ machine

theorem silent_resetFlags (machine : Machine arch) :
    machine.resetFlags.silent =
      { machine.silent with
        flags := Vector.ofFn fun index => (arch.flags.get index).default } := by
  have isPart : @IsPart arch _ (·.flags) fun machine flags => { machine with flags } :=
    ⟨fun _ => rfl, fun _ _ => rfl, fun _ => rfl, fun _ _ _ => rfl⟩
  rw [resetFlags, ← foldl_set_eq _ machine.flags]
  exact silent_foldl isPart (fun _ _ => rfl) _ machine

/-- Every cell of the stack is meant by an index below its size. -/
def ReachesStack (arch : Architecture) : Prop :=
  ∀ cell, ∃ index ∈ List.range arch.stackSize, stackCell? arch index = some cell

theorem silent_resetStack (reaches : ReachesStack arch) (machine : Machine arch) :
    machine.resetStack.silent = { machine.silent with stack := Vector.replicate _ 0 } := by
  have isPart : @IsPart arch _ (·.stack) fun machine stack => { machine with stack } :=
    ⟨fun _ => rfl, fun _ _ => rfl, fun _ => rfl, fun _ _ _ => rfl⟩
  let empty (stack : Vector UInt8 arch.stackSize) (index : Nat) : Vector UInt8 arch.stackSize :=
    (stackCell? arch index).elim stack fun cell => stack.set cell 0
  have emptied : (List.range arch.stackSize).foldl empty machine.stack = Vector.replicate _ 0 := by
    apply foldl_eq_of_reached (stackCell? arch) _ reaches
    intro stack index cell
    cases found : stackCell? arch index with
    | none => simp [empty, found]
    | some written => simp [empty, found, get_set]
  rw [resetStack, ← emptied]
  apply silent_foldl isPart
  intro machine index
  simp only [pokeStack, empty]
  cases stackCell? arch index <;> rfl

theorem reachesStack : ∀ arch ∈ Catalog.machines, ReachesStack arch :=
  Catalog.forall_machine (fun cell => cell.elim0) (fun cell => cell.elim0) (fun cell => cell.elim0)
    (fun cell => cell.elim0) (fun cell => cell.elim0)
    (fun cell => ⟨cell, List.mem_range.mpr cell.isLt, by revert cell; decide +kernel⟩)
    (fun cell => cell.elim0)

/-! ## The whole state -/

/-- The machine whose texts a reset refreshes. -/
theorem silent_beforeRefresh (reaches : ReachesStack arch) (machine : Machine arch) :
    (machine.resetRegisters.resetFlags.resetStack.clearCounts.setRunning false).silent =
      { machine.silent with
        registers := Vector.ofFn fun index => (arch.registers.get index).hold 0
        flags := Vector.ofFn fun index => (arch.flags.get index).default
        stack := Vector.replicate _ 0
        running := false
        instructionCount := 0
        accessCount := 0 } := by
  calc
    (machine.resetRegisters.resetFlags.resetStack.clearCounts.setRunning false).silent =
        { machine.resetRegisters.resetFlags.resetStack.silent with
          running := false
          instructionCount := 0
          accessCount := 0 } := rfl
    _ = _ := by rw [silent_resetStack reaches, silent_resetFlags, silent_resetRegisters]

/-- A reset leaves the same machine whatever was there before but memory and labels. -/
theorem silent_reset (reaches : ReachesStack arch) {machine other : Machine arch}
    (memory : machine.memory = other.memory) (labels : machine.labels = other.labels) :
    machine.reset.silent = other.reset.silent := by
  apply silent_refreshTexts
  intro texts
  rw [silent_beforeRefresh reaches, silent_beforeRefresh reaches]
  simp only [withTexts, silent, memory, labels]

theorem memory_reset (reaches : ReachesStack arch) (machine : Machine arch) :
    machine.reset.memory = machine.memory := by
  have rest := congrArg Machine.memory (rest_refreshTexts
    (machine.resetRegisters.resetFlags.resetStack.clearCounts.setRunning false) machine.texts)
  rw [silent_beforeRefresh reaches] at rest
  exact rest

theorem labels_reset (reaches : ReachesStack arch) (machine : Machine arch) :
    machine.reset.labels = machine.labels := by
  have rest := congrArg Machine.labels (rest_refreshTexts
    (machine.resetRegisters.resetFlags.resetStack.clearCounts.setRunning false) machine.texts)
  rw [silent_beforeRefresh reaches] at rest
  exact rest

end Machine

end ClassroomCpu
