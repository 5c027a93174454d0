import ClassroomCpu.Proofs.Assembly.History
import ClassroomCpu.Proofs.Event.Audience
import ClassroomCpu.Proofs.Event.TextSweep
import ClassroomCpu.Proofs.MemoryImage.RoundTrip

/-!
# What a build and a memory image tell

A build replaces memory, labels and texts, and so does a memory image.  Either
tells of each cell that differs afterwards once, and of no other: first of
memory and labels, then of the texts, each in ascending order.
-/

namespace ClassroomCpu

/-! ## Kinds of events -/

namespace Event

/-- The event tells of a memory cell. -/
def isMemory : Event → Bool
  | memory _ _ => true
  | _ => false

/-- The event tells of the label of a cell. -/
def isLabel : Event → Bool
  | label _ _ => true
  | _ => false

/-- The event tells of the text of a cell. -/
def isText : Event → Bool
  | instructionText _ _ => true
  | _ => false

end Event

section Kinds

variable {α : Type} [DecidableEq α] {size : Nat} {event : Fin size → α → Event}
  {kind : Event → Bool}

theorem filter_changed (all : ∀ cell value, kind (event cell value) = true)
    (before after : Vector α size) (cell : Fin size) :
    (changed event before after cell).filter kind = changed event before after cell := by
  unfold changed
  split
  · rfl
  · simp [all]

theorem filter_changed_eq_nil (none : ∀ cell value, kind (event cell value) = false)
    (before after : Vector α size) (cell : Fin size) :
    (changed event before after cell).filter kind = [] := by
  unfold changed
  split
  · rfl
  · simp [none]

theorem filter_changes (all : ∀ cell value, kind (event cell value) = true)
    (before after : Vector α size) :
    (changes event before after).filter kind = changes event before after := by
  simp only [changes, List.filter_flatMap, filter_changed all]

theorem filter_changes_eq_nil (none : ∀ cell value, kind (event cell value) = false)
    (before after : Vector α size) : (changes event before after).filter kind = [] := by
  simp [changes, List.filter_flatMap, filter_changed_eq_nil none]

end Kinds

namespace Machine

variable {arch : Architecture} {machine after : Machine arch}

/-! ## Resets -/

/-- The event of an emptied stack cell, if there is a stack. -/
def emptiedCell (arch : Architecture) (index : Nat) : List Event :=
  match stackCell? arch index with
  | some cell => [.stack cell 0]
  | none => []

/-- What a reset tells of before it refreshes the texts. -/
def resetEvents (arch : Architecture) : List Event :=
  ((List.finRange arch.registers.length).flatMap fun index =>
      [.register (arch.registers.get index).name ((arch.registers.get index).hold 0)]) ++
    ((List.finRange arch.flags.length).flatMap fun index =>
      [.flag (arch.flags.get index).name (arch.flags.get index).default]) ++
    (List.range arch.stackSize).flatMap (emptiedCell arch) ++
    [.instructionCount 0, .accessCount 0] ++ [.running false]

theorem announces_beforeRefresh (machine : Machine arch) :
    Announces
      (fun machine => machine.resetRegisters.resetFlags.resetStack.clearCounts.setRunning false)
      machine (resetEvents arch) := by
  have setRegister : ∀ (machine : Machine arch) index,
      Announces (fun machine => machine.setRegister index 0) machine
        [.register (arch.registers.get index).name ((arch.registers.get index).hold 0)] :=
    fun _ _ _ => rfl
  have setFlag : ∀ (machine : Machine arch) index,
      Announces (fun machine => machine.setFlag index (arch.flags.get index).default) machine
        [.flag (arch.flags.get index).name (arch.flags.get index).default] :=
    fun _ _ _ => rfl
  have empty : ∀ (machine : Machine arch) index,
      Announces (fun machine => machine.pokeStack index 0) machine (emptiedCell arch index) := by
    intro machine index hub
    simp only [pokeStack, emptiedCell]
    cases stackCell? arch index <;> rfl
  have registers : Announces resetRegisters machine _ :=
    .foldl setRegister (fun _ _ _ _ => rfl) (List.nodup_finRange _) machine
  have flags : Announces resetFlags machine.resetRegisters _ :=
    .foldl setFlag (fun _ _ _ _ => rfl) (List.nodup_finRange _) _
  have stack : Announces resetStack machine.resetRegisters.resetFlags _ :=
    .foldl empty (fun _ _ _ _ => rfl) List.nodup_range _
  have counts : Announces clearCounts machine.resetRegisters.resetFlags.resetStack
      [.instructionCount 0, .accessCount 0] := fun _ => rfl
  have running : Announces (fun machine => machine.setRunning false)
      machine.resetRegisters.resetFlags.resetStack.clearCounts [.running false] := fun _ => rfl
  exact (((registers.trans flags).trans stack).trans counts).trans running

theorem kind_resetEvents {event : Event} (among : event ∈ resetEvents arch) :
    event.isMemory = false ∧ event.isLabel = false ∧ event.isText = false := by
  simp only [resetEvents, List.mem_append, List.mem_flatMap, List.mem_cons, List.not_mem_nil,
    or_false] at among
  rcases among with (((⟨_, _, rfl⟩ | ⟨_, _, rfl⟩) | ⟨index, _, told⟩) | rfl | rfl) | rfl
  case inl.inl.inr =>
    unfold emptiedCell at told
    split at told
    · rw [List.mem_singleton.mp told]
      exact ⟨rfl, rfl, rfl⟩
    · exact absurd told List.not_mem_nil
  all_goals exact ⟨rfl, rfl, rfl⟩

theorem announces_reset (reaches : ReachesStack arch) (machine : Machine arch) :
    Announces reset machine (resetEvents arch ++ machine.textChanges machine.reset) := by
  have silent := silent_beforeRefresh reaches machine
  have texts : (machine.resetRegisters.resetFlags.resetStack.clearCounts.setRunning false).texts =
      machine.texts := texts_of_silent silent rfl
  have told := (announces_beforeRefresh machine).trans (announces_refreshTexts _)
  unfold textChanges at told ⊢
  rwa [texts] at told

/-! ## Builds and memory images -/

/-- What a build tells of when it is put into a machine. -/
theorem announces_install (reaches : ReachesStack arch) (machine : Machine arch)
    (memory : Vector UInt8 arch.memorySize) (labels : Vector String arch.memorySize) :
    let after := ((machine.writeImage memory).setLabels labels).reset
    Announces (fun machine => ((machine.writeImage memory).setLabels labels).reset) machine
      (machine.memoryChanges after ++ machine.labelChanges after ++
        (resetEvents arch ++ machine.textChanges after)) := by
  intro after
  let written := machine.writeImage memory
  let labelled := written.setLabels labels
  have silent : labelled.silent = { machine.silent with memory, labels } := by
    rw [silent_setLabels, silent_writeImage]
  have sameMemory : after.memory = memory :=
    (memory_reset reaches labelled).trans (memory_of_silent silent rfl)
  have sameLabels : after.labels = labels :=
    (labels_reset reaches labelled).trans (labels_of_silent silent rfl)
  have labelsBefore : written.labels = machine.labels :=
    labels_of_silent (silent_writeImage machine memory) rfl
  have textsBefore : labelled.texts = machine.texts := texts_of_silent silent rfl
  have told := ((announces_writeImage machine memory).trans
    (announces_setLabels written labels)).trans (announces_reset reaches labelled)
  unfold textChanges at told
  rw [labelsBefore, textsBefore] at told
  unfold memoryChanges labelChanges textChanges
  rw [sameMemory, sameLabels]
  exact told

/-- Gives a cell a value and no label. -/
def takeCell (memory : Vector UInt8 arch.memorySize) (machine : Machine arch)
    (cell : Fin arch.memorySize) : Machine arch :=
  (machine.writeCell cell (memory.get cell)).setLabel cell ""

/-- Values for all cells from an address on are taken over cell by cell. -/
theorem takeCells_eq {memory : Vector UInt8 arch.memorySize} {address : Nat} {values : List UInt8}
    (length : address + values.length = arch.memorySize)
    (given : ∀ cell : Fin arch.memorySize, address ≤ cell →
      values[(cell : Nat) - address]? = some (memory.get cell)) :
    machine.takeCells address values =
      (cellsBehind arch address).foldl (takeCell memory) machine := by
  induction values generalizing machine address with
  | nil =>
      rw [cellsBehind_eq_nil (by simpa using length.ge)]
      rfl
  | cons value values induction =>
      rw [List.length_cons] at length
      have inside : address < arch.memorySize := by omega
      have here : memory.get ⟨address, inside⟩ = value := by
        have first := given ⟨address, inside⟩ le_rfl
        rw [Nat.sub_self] at first
        exact (Option.some.inj first).symm
      have place : arch.cell address = ⟨address, inside⟩ := Fin.ext (Nat.mod_eq_of_lt inside)
      rw [takeCells, cellsBehind_eq_cons inside, List.foldl_cons, takeCell, here, place]
      apply induction (by omega)
      intro cell behind
      have distance : (cell : Nat) - address = (cell : Nat) - (address + 1) + 1 := by omega
      have there := given cell (by omega)
      rwa [distance, List.getElem?_cons_succ] at there

theorem silent_takeCell (memory : Vector UInt8 arch.memorySize) (machine : Machine arch)
    (cell : Fin arch.memorySize) :
    (takeCell memory machine cell).silent =
      { machine.silent with
        memory := machine.memory.set cell (memory.get cell) cell.isLt
        labels := machine.labels.set cell "" cell.isLt } := by
  have written := machine.silent_writeCell cell (memory.get cell)
  have labels : (machine.writeCell cell (memory.get cell)).labels = machine.labels :=
    labels_of_silent written rfl
  rw [takeCell, silent_setLabel, written, labels]

theorem announces_takeCell (machine : Machine arch) (memory : Vector UInt8 arch.memorySize)
    {labels : Vector String arch.memorySize} {cell : Fin arch.memorySize}
    (empty : labels.get cell = "") :
    Announces (fun machine => takeCell memory machine cell) machine
      (changed (fun cell => .memory cell) machine.memory memory cell ++
        changed (fun cell => .label cell) machine.labels labels cell) := by
  have before : (machine.writeCell cell (memory.get cell)).labels = machine.labels :=
    labels_of_silent (machine.silent_writeCell cell (memory.get cell)) rfl
  have labelled := announces_setLabel (machine.writeCell cell (memory.get cell)) labels cell
  rw [empty, before] at labelled
  exact (announces_writeCell machine memory cell).trans labelled

/-- Taking over values for all cells tells of each cell that differs, cell by cell. -/
theorem announces_takeCells (machine : Machine arch) {values : List UInt8}
    (length : values.length = arch.memorySize) :
    let after := machine.takeCells 0 values
    Announces (fun machine => machine.takeCells 0 values) machine
      ((List.finRange arch.memorySize).flatMap fun cell =>
        changed (fun cell => .memory cell) machine.memory after.memory cell ++
          changed (fun cell => .label cell) machine.labels after.labels cell) := by
  intro after
  have silent : after.silent = _ := silent_takeCells 0 values
  have memory : after.memory = arch.fill machine.memory 0 values := memory_of_silent silent rfl
  have labels : after.labels = arch.fill machine.labels 0 (values.map fun _ => "") :=
    labels_of_silent silent rfl
  have given : ∀ cell : Fin arch.memorySize, 0 ≤ (cell : Nat) →
      values[(cell : Nat) - 0]? = some (after.memory.get cell) := by
    intro cell _
    rw [memory]
    exact Architecture.getElem?_fill machine.memory length cell
  have empty : ∀ cell, after.labels.get cell = "" := by
    intro cell
    have sameLength : (values.map fun _ => "").length = arch.memorySize := by
      rwa [List.length_map]
    have there := Architecture.getElem?_fill machine.labels sameLength cell
    rw [labels]
    simpa [length] using there.symm
  have cellwise : (fun machine : Machine arch => machine.takeCells 0 values) =
      fun machine => (List.finRange arch.memorySize).foldl (takeCell after.memory) machine :=
    funext fun machine => takeCells_eq (by rwa [Nat.zero_add]) given
  rw [cellwise]
  refine Announces.foldl (fun machine cell => announces_takeCell machine after.memory (empty cell))
    ?_ (List.nodup_finRange _) machine
  intro machine cell other apart
  have silent := silent_takeCell after.memory machine cell
  have memory : (takeCell after.memory machine cell).memory.get other = machine.memory.get other :=
    (congrArg (·.get other) (memory_of_silent silent rfl)).trans (get_set_of_ne apart)
  have labels : (takeCell after.memory machine cell).labels.get other = machine.labels.get other :=
    (congrArg (·.get other) (labels_of_silent silent rfl)).trans (get_set_of_ne apart)
  rw [changed_congr memory, changed_congr labels]

/-- What a memory image tells of when it is taken over. -/
theorem announces_takeImage (machine : Machine arch) {values : List UInt8}
    (length : values.length = arch.memorySize) :
    let after := (machine.takeCells 0 values).refreshTexts
    Announces (fun machine => (machine.takeCells 0 values).refreshTexts) machine
      (((List.finRange arch.memorySize).flatMap fun cell =>
        changed (fun cell => .memory cell) machine.memory after.memory cell ++
          changed (fun cell => .label cell) machine.labels after.labels cell) ++
        machine.textChanges after) := by
  intro after
  let taken := machine.takeCells 0 values
  have memory : after.memory = taken.memory := memory_refreshTexts taken
  have labels : after.labels = taken.labels := labels_refreshTexts taken
  have texts : taken.texts = machine.texts :=
    texts_of_silent (silent_takeCells 0 values) rfl
  have told := (announces_takeCells machine length).trans (announces_refreshTexts taken)
  unfold textChanges at told ⊢
  rw [texts] at told
  rw [memory, labels]
  exact told

/-! ## What a listener for every event hears -/

/--
From one machine to the next a listener for every event has heard of each cell that differs once,
and of no other: of memory and labels in ascending order, and then of the texts in ascending order.
-/
structure NotifiesMinimally (listener : Nat) (machine after : Machine arch) : Prop where
  memory : (after.hub.heardSince machine.hub listener).filter Event.isMemory =
    machine.memoryChanges after
  labels : (after.hub.heardSince machine.hub listener).filter Event.isLabel =
    machine.labelChanges after
  /-- The texts come last. -/
  texts : ∃ others, after.hub.heardSince machine.hub listener =
    others ++ machine.textChanges after ∧ ∀ event ∈ others, event.isText = false
  /-- No events are held back any more. -/
  direct : after.hub.isQueueing = false

/-- What is announced while events are held back is told by the flush. -/
theorem Announces.hasTold {change : Machine arch → Machine arch} {events : List Event}
    (announced : Announces change machine.startQueue events) :
    Hub.HasTold machine.hub (change machine.startQueue).flush.hub events := by
  change Hub.HasTold _ (Hub.flush _) _
  rw [announced.hub_eq]
  exact Hub.hasTold_flush machine.hub events

/-- Events of memory and labels, and others in between, of which the texts come last. -/
theorem notifiesMinimally_of_told {listener : Nat} (reached : machine.hub.Reached)
    (hears : machine.hub.HearsAll listener) (direct : machine.hub.isQueueing = false)
    {others : List Event}
    (told : Hub.HasTold machine.hub after.hub (others ++ machine.textChanges after))
    (memory : others.filter Event.isMemory = machine.memoryChanges after)
    (labels : others.filter Event.isLabel = machine.labelChanges after)
    (noText : others.filter Event.isText = []) : NotifiesMinimally listener machine after := by
  have heard := told.heardSince reached hears direct
  constructor
  · rw [heard, List.filter_append, memory, textChanges, filter_changes_eq_nil fun _ _ => rfl,
      List.append_nil]
  · rw [heard, List.filter_append, labels, textChanges, filter_changes_eq_nil fun _ _ => rfl,
      List.append_nil]
  · refine ⟨others, heard, fun event among => ?_⟩
    simpa using List.filter_eq_nil_iff.mp noText event among
  · simp [Hub.isQueueing, told.direct]

theorem filter_resetEvents {kind : Event → Bool}
    (none : ∀ event ∈ resetEvents arch, kind event = false) :
    (resetEvents arch).filter kind = [] :=
  List.filter_eq_nil_iff.mpr fun event among => by simp [none event among]

/-- A build that is put into a machine tells of memory, of the labels, of a reset and of texts. -/
theorem notifiesMinimally_commit {listener : Nat} (reaches : ReachesStack arch)
    (assembler : Assembly.Assembler arch) (reached : machine.hub.Reached)
    (hears : machine.hub.HearsAll listener) (direct : machine.hub.isQueueing = false) :
    NotifiesMinimally listener machine (assembler.commit machine) := by
  let after := assembler.commit machine
  have announced := announces_install reaches machine.startQueue assembler.memory
    assembler.labelTexts
  have told : Hub.HasTold machine.hub after.hub
      (machine.memoryChanges after ++ machine.labelChanges after ++ resetEvents arch ++
        machine.textChanges after) := by
    rw [List.append_assoc]
    exact announced.hasTold
  refine notifiesMinimally_of_told reached hears direct told ?_ ?_ ?_
  · rw [List.filter_append, List.filter_append,
      filter_resetEvents fun _ among => (kind_resetEvents among).1, memoryChanges, labelChanges,
      filter_changes fun _ _ => rfl, filter_changes_eq_nil fun _ _ => rfl, List.append_nil,
      List.append_nil]
  · rw [List.filter_append, List.filter_append,
      filter_resetEvents fun _ among => (kind_resetEvents among).2.1, memoryChanges, labelChanges,
      filter_changes_eq_nil fun _ _ => rfl, filter_changes fun _ _ => rfl, List.nil_append,
      List.append_nil]
  · rw [List.filter_append, List.filter_append,
      filter_resetEvents fun _ among => (kind_resetEvents among).2.2, memoryChanges, labelChanges,
      filter_changes_eq_nil fun _ _ => rfl, filter_changes_eq_nil fun _ _ => rfl, List.append_nil,
      List.append_nil]

/-- A memory image that is taken over tells of the cells one by one, and of texts. -/
theorem notifiesMinimally_takeImage {listener : Nat} {values : List UInt8}
    (length : values.length = arch.memorySize) (reached : machine.hub.Reached)
    (hears : machine.hub.HearsAll listener) (direct : machine.hub.isQueueing = false) :
    NotifiesMinimally listener machine
      (machine.startQueue.takeCells 0 values).refreshTexts.flush := by
  let after := (machine.startQueue.takeCells 0 values).refreshTexts.flush
  let cells := (List.finRange arch.memorySize).flatMap fun cell =>
    changed (fun cell => .memory cell) machine.memory after.memory cell ++
      changed (fun cell => .label cell) machine.labels after.labels cell
  have told : Hub.HasTold machine.hub after.hub (cells ++ machine.textChanges after) :=
    (announces_takeImage machine.startQueue length).hasTold
  -- The kind of an event of one cell is known without the cell's value.
  have ofMemory : ∀ kind,
      (∀ cell : Fin arch.memorySize, ∀ value, kind (.memory cell value) = false) →
      ∀ cell, (changed (fun cell => .memory cell) machine.memory after.memory cell).filter kind =
        [] := fun _ none => filter_changed_eq_nil none _ _
  have ofLabel : ∀ kind,
      (∀ cell : Fin arch.memorySize, ∀ value, kind (.label cell value) = false) →
      ∀ cell, (changed (fun cell => .label cell) machine.labels after.labels cell).filter kind =
        [] := fun _ none => filter_changed_eq_nil none _ _
  refine notifiesMinimally_of_told reached hears direct told ?_ ?_ ?_
  · have kept : ∀ cell, (changed (fun cell => .memory cell) machine.memory after.memory
        cell).filter Event.isMemory = _ := filter_changed (fun _ _ => rfl) _ _
    simp only [cells, List.filter_flatMap, List.filter_append, kept,
      ofLabel Event.isMemory fun _ _ => rfl, List.append_nil]
    rfl
  · have kept : ∀ cell, (changed (fun cell => .label cell) machine.labels after.labels
        cell).filter Event.isLabel = _ := filter_changed (fun _ _ => rfl) _ _
    simp only [cells, List.filter_flatMap, List.filter_append, kept,
      ofMemory Event.isLabel fun _ _ => rfl, List.nil_append]
    rfl
  · simp [cells, List.filter_flatMap, ofMemory Event.isText fun _ _ => rfl,
      ofLabel Event.isText fun _ _ => rfl]

/-! ## Builds and imports -/

/--
A build without problems and a memory image that is accepted tell a listener for every event of
each cell that differs afterwards, once and in ascending order: of memory and labels first, then of
the texts.  Nothing is held back afterwards, whatever the machine did before.
-/
theorem installs_notifyMinimally (known : arch ∈ Catalog.machines) (machine : Machine arch)
    {listener : Nat} (reached : machine.hub.Reached) (hears : machine.hub.HearsAll listener)
    (direct : machine.hub.isQueueing = false) :
    (∀ {before : Architecture} (assembler : Assembly.Assembler before) (source : String),
      let built := assembler.assemble machine source
      built.errors = [] → NotifiesMinimally listener machine built.machine) ∧
    ∀ image after, machine.importImage image = .ok after →
      NotifiesMinimally listener machine after := by
  constructor
  · intro before assembler source built noErrors
    have noFault := assembler.fault_assemble machine source known
    rw [assembler.machine_assemble machine source noErrors noFault]
    exact notifiesMinimally_commit (reachesStack arch known) _ reached hears direct
  · intro image after accepted
    have isImage := (takenOver_of_importImage accepted).1
    have length : (MemoryImage.withoutPadding (MemoryImage.cellBytes image)).length =
        arch.memorySize := by
      rw [MemoryImage.length_withoutPadding, isImage.length_cellBytes]
      omega
    rw [importImage, MemoryImage.cells_eq_iff.mpr (.own isImage)] at accepted
    obtain rfl := Except.ok.inj accepted
    exact notifiesMinimally_takeImage length reached hears direct

/-- A build that replaces a value and a label, and an image of the machine before it. -/
theorem installs_notifyMinimally_neander :
    let used := ((Machine.new Catalog.neander).poke 9 7).setLabel (Catalog.neander.cell 3) "old"
    let machine := (used.subscribe everyTopic).2
    let listener := (used.subscribe everyTopic).1.listener
    let built := (Assembly.Assembler.new Catalog.neander).assemble machine "lda b\nhlt\nb: db 6"
    NotifiesMinimally listener machine built.machine ∧
      ∃ after, machine.importImage machine.exportImage = .ok after ∧
        NotifiesMinimally listener machine after := by
  intro used machine listener built
  have known : Catalog.neander ∈ Catalog.machines := by simp [Catalog.machines]
  have before : used.hub.Reached := by
    have poked : ((Machine.new Catalog.neander).poke 9 7).hub.Reached :=
      .publish (.memory 9 7) .empty
    unfold used setLabel
    split
    · exact poked
    · exact .publish (.label (Catalog.neander.cell 3) "old") poked
  have reached : machine.hub.Reached := .subscribe everyTopic before
  have hears : machine.hub.HearsAll listener := Hub.hearsAll_subscribe used.hub
  have direct : machine.hub.isQueueing = false := by decide +kernel
  have noErrors : built.errors = [] := by decide +kernel
  obtain ⟨builds, imports⟩ := installs_notifyMinimally known machine reached hears direct
  have short : (MemoryImage.textBytes Catalog.neander.identifier).length ≤ 255 := by decide +kernel
  obtain ⟨after, accepted, _⟩ :=
    importImage_of_isImageOf machine (MemoryImage.isImageOf_exportImage machine short)
  exact ⟨builds _ _ noErrors, after, accepted, imports _ after accepted⟩

end Machine

end ClassroomCpu
