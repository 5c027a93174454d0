import ClassroomCpu.Catalog
import ClassroomCpu.Proofs.Catalog.Registers
import ClassroomCpu.Proofs.Machine.Change
import ClassroomCpu.Proofs.Machine.Frame
import Mathlib.Data.List.Nodup

/-!
# Snapshots

An observer keeps a picture of a machine and brings it up to date by the events
that arrive.  The picture knows registers and flags by their names alone, so
that names have to be distinct.  An event that arrives twice in a row changes
nothing more than one that arrives once.
-/

namespace ClassroomCpu

/-- What an observer keeps of a machine. -/
structure Snapshot where
  memory : List UInt8
  stack : List UInt8
  /-- The registers by name, with their values. -/
  registers : List (String × Nat)
  /-- The flags by name, with their values. -/
  flags : List (String × Bool)
  /-- The instruction texts of the memory cells. -/
  texts : List String
  /-- The labels of the memory cells. -/
  labels : List String
  running : Bool
  instructionCount : Nat
  accessCount : Nat
  deriving DecidableEq, Repr

namespace Snapshot

variable {arch : Architecture}

/-- The entries with another value under a name. -/
def setEntry {α : Type} (entries : List (String × α)) (name : String) (value : α) :
    List (String × α) :=
  entries.map fun entry => if entry.1 = name then (name, value) else entry

/-- Brings a snapshot up to date. -/
def apply (snapshot : Snapshot) : Event → Snapshot
  | .memory address value => { snapshot with memory := snapshot.memory.set address value }
  | .stack index value => { snapshot with stack := snapshot.stack.set index value }
  | .register name value => { snapshot with registers := setEntry snapshot.registers name value }
  | .flag name value => { snapshot with flags := setEntry snapshot.flags name value }
  | .instructionText address text => { snapshot with texts := snapshot.texts.set address text }
  | .label address label => { snapshot with labels := snapshot.labels.set address label }
  | .running value => { snapshot with running := value }
  | .instructionCount count => { snapshot with instructionCount := count }
  | .accessCount count => { snapshot with accessCount := count }

/-- Brings a snapshot up to date by several events in their order. -/
def replay (snapshot : Snapshot) (events : List Event) : Snapshot :=
  events.foldl apply snapshot

/-- The snapshot of a machine. -/
def ofMachine (machine : Machine arch) : Snapshot where
  memory := machine.memory.toList
  stack := machine.stack.toList
  registers := (List.finRange arch.registers.length).map fun index =>
    ((arch.registers.get index).name, machine.registers.get index)
  flags := (List.finRange arch.flags.length).map fun index =>
    ((arch.flags.get index).name, machine.flags.get index)
  texts := machine.texts.toList
  labels := machine.labels.toList
  running := machine.running
  instructionCount := machine.instructionCount
  accessCount := machine.accessCount

/-! ## Replaying -/

@[simp] theorem replay_nil (snapshot : Snapshot) : snapshot.replay [] = snapshot := rfl

@[simp] theorem replay_cons (snapshot : Snapshot) (event : Event) (events : List Event) :
    snapshot.replay (event :: events) = (snapshot.apply event).replay events := rfl

theorem replay_append (snapshot : Snapshot) (events later : List Event) :
    snapshot.replay (events ++ later) = (snapshot.replay events).replay later :=
  List.foldl_append

theorem setEntry_setEntry {α : Type} (entries : List (String × α)) (name : String) (value : α) :
    setEntry (setEntry entries name value) name value = setEntry entries name value := by
  rw [setEntry, setEntry, List.map_map]
  apply List.map_congr_left
  intro entry _
  by_cases same : entry.1 = name <;> simp [same]

/-- An event that arrives once more changes nothing. -/
theorem apply_apply (snapshot : Snapshot) (event : Event) :
    (snapshot.apply event).apply event = snapshot.apply event := by
  cases event <;> simp [apply, List.set_set, setEntry_setEntry]

theorem replay_replicate (snapshot : Snapshot) (event : Event) (count : Nat) :
    snapshot.replay (List.replicate (count + 1) event) = snapshot.apply event := by
  induction count with
  | zero => rfl
  | succ count induction =>
      rw [List.replicate_succ', replay_append, induction]
      exact apply_apply snapshot event

/-! ## Single changes -/

theorem toList_set {α : Type} {size : Nat} (cells : Vector α size) (position : Fin size)
    (value : α) :
    (cells.set position value position.isLt).toList = cells.toList.set position value :=
  Array.toList_set _ _ _ (by simp)

theorem setEntry_finRange {α : Type} {size : Nat} {name : Fin size → String}
    (apart : ∀ index other, name index = name other → index = other) (values : Vector α size)
    (index : Fin size) (value : α) :
    setEntry ((List.finRange size).map fun index => (name index, values.get index))
        (name index) value =
      (List.finRange size).map fun other =>
        (name other, (values.set index value index.isLt).get other) := by
  rw [setEntry, List.map_map]
  apply List.map_congr_left
  intro other _
  rw [get_set]
  by_cases same : index = other
  · simp [same]
  · have differs : name other ≠ name index := fun equal => same (apart _ _ equal).symm
    simp [same, differs]

end Snapshot

/-- Registers and flags are told apart by their names. -/
structure Architecture.DistinctNames (arch : Architecture) : Prop where
  registers : ∀ index other,
    (arch.registers.get index).name = (arch.registers.get other).name → index = other
  flags : ∀ index other,
    (arch.flags.get index).name = (arch.flags.get other).name → index = other

theorem eq_of_nodup_names {Part : Type} {name : Part → String} {parts : List Part}
    (distinct : (parts.map name).Nodup) (index other : Fin parts.length)
    (same : name (parts.get index) = name (parts.get other)) : index = other := by
  have samePart : parts.get index = parts.get other :=
    List.inj_on_of_nodup_map distinct (List.get_mem parts index) (List.get_mem parts other) same
  exact List.nodup_iff_injective_get.mp distinct.of_map samePart

theorem Architecture.DistinctNames.of_nodup {arch : Architecture}
    (registers : (arch.registers.map RegisterSpec.name).Nodup)
    (flags : (arch.flags.map FlagSpec.name).Nodup) : arch.DistinctNames :=
  ⟨eq_of_nodup_names registers, eq_of_nodup_names flags⟩

namespace Machine

variable {arch : Architecture} {machine after : Machine arch}

/-- The machine has changed as an event says, and has published the event. -/
structure Publishes (machine : Machine arch) (event : Event) (after : Machine arch) : Prop where
  snapshot : Snapshot.ofMachine after = (Snapshot.ofMachine machine).apply event
  hub : after.hub = machine.hub.publish event

/-- A write changes nothing, or what it publishes. -/
theorem publishes_of_write (names : arch.DistinctNames) (write : Write machine after) :
    after = machine ∨ ∃ event, machine.Publishes event after := by
  cases write with
  | poke address value =>
      exact .inr ⟨.memory (arch.cell address) (UInt8.ofInt value),
        by simp [Snapshot.ofMachine, Snapshot.apply, Snapshot.toList_set, poke, publish], rfl⟩
  | pokeStack index value =>
      unfold pokeStack
      split
      · rename_i cell _
        exact .inr ⟨.stack cell (UInt8.ofInt value),
          by simp [Snapshot.ofMachine, Snapshot.apply, Snapshot.toList_set, publish], rfl⟩
      · exact .inl rfl
  | setRegister index value =>
      have entries := Snapshot.setEntry_finRange names.registers machine.registers index
        ((arch.registers.get index).hold value)
      exact .inr ⟨.register _ _, congrArg
        (fun registers => { Snapshot.ofMachine machine with registers }) entries.symm, rfl⟩
  | setFlag index value =>
      have entries := Snapshot.setEntry_finRange names.flags machine.flags index value
      exact .inr ⟨.flag _ _, congrArg
        (fun flags => { Snapshot.ofMachine machine with flags }) entries.symm, rfl⟩
  | setRunning value => exact .inr ⟨.running value, rfl, rfl⟩
  | setInstructionCount count => exact .inr ⟨.instructionCount count, rfl, rfl⟩
  | setAccessCount count => exact .inr ⟨.accessCount count, rfl, rfl⟩

theorem publishes_setText (cell : Fin arch.memorySize) (text : String) :
    machine.setText cell text = machine ∨
      machine.Publishes (.instructionText cell text) (machine.setText cell text) := by
  unfold setText
  split
  · exact .inl rfl
  · exact .inr ⟨by simp [Snapshot.ofMachine, Snapshot.apply, Snapshot.toList_set, publish], rfl⟩

theorem publishes_setLabel (cell : Fin arch.memorySize) (label : String) :
    machine.setLabel cell label = machine ∨
      machine.Publishes (.label cell label) (machine.setLabel cell label) := by
  unfold setLabel
  split
  · exact .inl rfl
  · exact .inr ⟨by simp [Snapshot.ofMachine, Snapshot.apply, Snapshot.toList_set, publish], rfl⟩

end Machine

theorem Catalog.distinctNames : ∀ arch ∈ machines, arch.DistinctNames :=
  forall_machine (.of_nodup (by decide +kernel) (by decide +kernel))
    (.of_nodup (by decide +kernel) (by decide +kernel))
    (.of_nodup (by decide +kernel) (by decide +kernel))
    (.of_nodup (by decide +kernel) (by decide +kernel))
    (.of_nodup (by decide +kernel) (by decide +kernel))
    (.of_nodup (by decide +kernel) (by decide +kernel))
    (.of_nodup (by decide +kernel) (by decide +kernel))

end ClassroomCpu
