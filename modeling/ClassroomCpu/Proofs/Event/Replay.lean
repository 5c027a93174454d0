import ClassroomCpu.Proofs.Event.Delivery
import ClassroomCpu.Proofs.Execution.Write

/-!
# Events tell the whole story

Every single change of a machine is published, with the value as it was stored,
unless it changes nothing.  Whatever is done to a machine, an observer who
brings a snapshot up to date by the events that it hears ends with a snapshot of
the machine, as soon as no event is held back any more.
-/

namespace ClassroomCpu

open Assembly (Assembler)

variable {arch : Architecture}

namespace Machine

variable {machine after : Machine arch} {listener : Nat}

/-! ## Chains of changes -/

/-- From one state of a machine to a later one a listener is told about all that has changed. -/
def Tells (listener : Nat) (machine after : Machine arch) : Prop :=
  ∃ events, Hub.Tells listener machine.hub after.hub events ∧
    (Snapshot.ofMachine machine).replay events = Snapshot.ofMachine after

namespace Tells

theorem refl (machine : Machine arch) : Tells listener machine machine :=
  ⟨[], .refl machine.hub, rfl⟩

theorem trans {later : Machine arch} (first : Tells listener machine after)
    (second : Tells listener after later) : Tells listener machine later := by
  obtain ⟨events, told, replayed⟩ := first
  obtain ⟨further, toldLater, replayedLater⟩ := second
  refine ⟨events ++ further, told.trans toldLater, ?_⟩
  rw [Snapshot.replay_append, replayed, replayedLater]

theorem of_publishes {event : Event} (hears : machine.hub.HearsAll listener)
    (publishes : machine.Publishes event after) : Tells listener machine after := by
  refine ⟨[event], ?_, publishes.snapshot.symm⟩
  rw [publishes.hub]
  exact Hub.tells_publish hears event

theorem hearsAll (tells : Tells listener machine after) (hears : machine.hub.HearsAll listener) :
    after.hub.HearsAll listener := by
  obtain ⟨_, told, _⟩ := tells
  exact hears.later told

end Tells

theorem tells_of_change (names : arch.DistinctNames) (hears : machine.hub.HearsAll listener)
    (change : Change machine after) : Tells listener machine after := by
  cases change with
  | write write =>
      rcases publishes_of_write names write with rfl | ⟨event, publishes⟩
      · exact .refl _
      · exact .of_publishes hears publishes
  | setText cell text =>
      rcases publishes_setText cell text with same | publishes
      · rw [same]
        exact .refl _
      · exact .of_publishes hears publishes
  | setLabel cell label =>
      rcases publishes_setLabel cell label with same | publishes
      · rw [same]
        exact .refl _
      · exact .of_publishes hears publishes
  | startQueue => exact ⟨[], Hub.tells_startQueue _, rfl⟩
  | flush => exact ⟨[], Hub.tells_flush hears, rfl⟩

/-- A chain of changes is told from its start to its end. -/
theorem tells_of_changes (names : arch.DistinctNames) (hears : machine.hub.HearsAll listener)
    (changes : Changes machine after) : Tells listener machine after := by
  induction changes with
  | refl => exact .refl _
  | tail _ change told => exact told.trans (tells_of_change names (told.hearsAll hears) change)

/-! ## Whatever is done -/

/-- What can be done to a machine. -/
inductive Action
  | poke (address : Nat) (value : Int)
  | pokeStack (index : Nat) (value : Int)
  | setRegister (name : String) (value : Int)
  | setCounter (value : Int)
  | setCode (code : FlagCode) (value : Bool)
  | setFlag (name : String) (value : Bool)
  | setRunning (value : Bool)
  | clearCounts
  | reset
  | refreshTexts
  | step
  /-- Run for some steps at most; a run without a limit ends as one with a limit beyond its end. -/
  | run (limit : Nat)
  /-- Build a program, with an assembler that may have built others before. -/
  | assemble {before : Architecture} (assembler : Assembler before) (source : String)
  | importImage (image : List UInt8)
  | startQueue
  | flush

/-- The machine after an action; what is refused leaves the machine as it is. -/
def perform (machine : Machine arch) : Action → Machine arch
  | .poke address value => machine.poke address value
  | .pokeStack index value => machine.pokeStack index value
  | .setRegister name value => (machine.setRegisterNamed name value).toOption.getD machine
  | .setCounter value => machine.setCounter value
  | .setCode code value => machine.setCode code value
  | .setFlag name value => (machine.setFlagNamed name value).toOption.getD machine
  | .setRunning value => machine.setRunning value
  | .clearCounts => machine.clearCounts
  | .reset => machine.reset
  | .refreshTexts => machine.refreshTexts
  | .step => Exec.step.after machine
  | .run limit => (Exec.run limit).after machine
  | .assemble assembler source => (assembler.assemble machine source).machine
  | .importImage image => (machine.importImage image).toOption.getD machine
  | .startQueue => machine.startQueue
  | .flush => machine.flush

/-- The machine after some actions. -/
def performAll (machine : Machine arch) (actions : List Action) : Machine arch :=
  actions.foldl perform machine

theorem changes_setRegisterNamed (name : String) (value : Int) :
    Changes machine ((machine.setRegisterNamed name value).toOption.getD machine) := by
  unfold setRegisterNamed
  split
  · exact .refl
  · cases findRegister arch name with
    | ok index => exact .single (.write (.setRegister machine index value))
    | error fault => exact .refl

theorem changes_setFlagNamed (name : String) (value : Bool) :
    Changes machine ((machine.setFlagNamed name value).toOption.getD machine) := by
  unfold setFlagNamed
  cases findFlag arch name with
  | ok index => exact .single (.write (.setFlag machine index value))
  | error fault => exact .refl

/-- Every action is a chain of changes. -/
theorem changes_perform (machine : Machine arch) (action : Action) :
    Changes machine (machine.perform action) := by
  cases action with
  | poke address value => exact .single (.write (.poke machine address value))
  | pokeStack index value => exact .single (.write (.pokeStack machine index value))
  | setRegister name value => exact changes_setRegisterNamed name value
  | setCounter value => exact .single (.write (.setRegister machine arch.counter value))
  | setCode code value => exact (writes_setCode machine code value).changes
  | setFlag name value => exact changes_setFlagNamed name value
  | setRunning value => exact .single (.write (.setRunning machine value))
  | clearCounts => exact (writes_clearCounts machine).changes
  | reset => exact changes_reset machine
  | refreshTexts => exact changes_refreshTexts machine
  | step => exact (Exec.writes_step machine).changes
  | run limit => exact (Exec.writes_run limit machine).changes
  | assemble assembler source => exact changes_assemble machine assembler source
  | importImage image => exact changes_importImage machine image
  | startQueue => exact .single (.startQueue machine)
  | flush => exact .single (.flush machine)

theorem changes_performAll (machine : Machine arch) (actions : List Action) :
    Changes machine (machine.performAll actions) :=
  reflTransGen_foldl machine changes_perform actions

/-! ## What the listener knows in the end -/

/--
Between two moments at which no event is held back, a listener for every event
hears all that it needs to keep a snapshot of the machine up to date.
-/
theorem replay_heardSince (known : arch ∈ Catalog.machines) {machine : Machine arch}
    {listener : Nat} (hears : machine.hub.HearsAll listener) (actions : List Action)
    (starts : machine.hub.isQueueing = false)
    (ends : (machine.performAll actions).hub.isQueueing = false) :
    let after := machine.performAll actions
    machine.hub.deliveries.toList <+: after.hub.deliveries.toList ∧
      (Snapshot.ofMachine machine).replay (after.hub.heardSince machine.hub listener) =
        Snapshot.ofMachine after := by
  intro after
  obtain ⟨events, told, replayed⟩ : Tells listener machine after :=
    tells_of_changes (Catalog.distinctNames arch known) hears (changes_performAll machine actions)
  obtain ⟨deliveries, delivered, same⟩ := told.delivered
  have nothing : ∀ hub : Hub, hub.isQueueing = false → hub.pending = [] := by
    intro hub direct
    have noQueue : hub.queue = none := by simpa [Hub.isQueueing] using direct
    simp [Hub.pending, noQueue]
  refine ⟨⟨deliveries, delivered.symm⟩, ?_⟩
  have since : after.hub.heardSince machine.hub listener = heard listener deliveries := by
    rw [Hub.heardSince, delivered, ← Array.length_toList, List.drop_left]
  have story := same (Snapshot.ofMachine machine)
  rw [nothing _ starts, nothing _ ends, List.append_nil, List.nil_append, replayed] at story
  rw [since, story]

theorem replay_heardSince_queued_step :
    let machine := ((Machine.new Catalog.neander).subscribe everyTopic).2
    let actions := [Action.startQueue, .poke 0 0x60, .step, .flush, .setRegister "AC" (-1)]
    let after := machine.performAll actions
    Catalog.neander ∈ Catalog.machines ∧ machine.hub.HearsAll 0 ∧
      machine.hub.isQueueing = false ∧ after.hub.isQueueing = false ∧
      (Snapshot.ofMachine machine).replay (after.hub.heardSince machine.hub 0) =
        Snapshot.ofMachine after := by
  intro machine actions after
  have known : Catalog.neander ∈ Catalog.machines := by simp [Catalog.machines]
  have hears : machine.hub.HearsAll 0 := Hub.hearsAll_subscribe .empty
  have starts : machine.hub.isQueueing = false := rfl
  have ends : after.hub.isQueueing = false := by decide +kernel
  exact ⟨known, hears, starts, ends, (replay_heardSince known hears actions starts ends).2⟩

end Machine

end ClassroomCpu
