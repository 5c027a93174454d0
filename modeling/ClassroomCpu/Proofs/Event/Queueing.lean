import ClassroomCpu.Proofs.Assembly.History
import ClassroomCpu.Proofs.Event.Filing
import ClassroomCpu.Proofs.Event.Replay

/-!
# How long events are held back

Whoever starts a queue holds back what the machine tells from then on.  A build
and a memory image that are taken over hold events back themselves, in the same
queue, and end it: they tell everything that was held back before, and what
follows is told at once.  Nothing else ends a queue, and however it ends the
listeners are told of all events in their order.
-/

namespace ClassroomCpu

open Assembly (Assembler)

variable {arch : Architecture}

/-! ## Steps and runs -/

namespace Exec

variable {α : Type}

/-- The same result with other listeners. -/
def withHub (hub : Hub) : EStateM.Result Fault (Machine arch) α →
    EStateM.Result Fault (Machine arch) α
  | .ok result after => .ok result (after.withHub hub)
  | .error fault after => .error fault (after.withHub hub)

/-- What is put together from parts does the same whoever listens, and tells of it. -/
theorem Composed.announced {computation : Exec arch α} (composed : Composed computation)
    (machine : Machine arch) :
    ∃ events, ∀ hub,
      computation (machine.withHub hub) = withHub (hub.publishAll events) (computation machine) := by
  induction composed generalizing machine with
  | pure result => exact ⟨[], fun _ => rfl⟩
  | throw fault => exact ⟨[], fun _ => rfl⟩
  | look deaf further induction =>
      obtain ⟨events, told⟩ := induction machine machine
      exact ⟨events, fun hub => (congrFun (deaf machine hub) _).trans (told hub)⟩
  | write writes announced =>
      obtain ⟨events, told⟩ := announced machine
      exact ⟨events, fun hub => congrArg (EStateM.Result.ok PUnit.unit) (told hub)⟩
  | @bind_of_gives α β computation next described first gives second first' second' =>
      obtain ⟨events, told⟩ := first' machine
      cases ends : computation machine with
      | error fault between =>
          -- What was told up to the fault stays told.
          refine ⟨events, fun hub => ?_⟩
          have here := told hub
          rw [ends] at here
          simp only [Bind.bind, EStateM.bind, here, ends, withHub]
      | ok result between =>
          obtain ⟨more, toldMore⟩ := second' result (gives machine result between ends) between
          refine ⟨events ++ more, fun hub => ?_⟩
          have here := told hub
          rw [ends] at here
          rw [bind_of_ok ends, bind_of_ok here, toldMore, Hub.publishAll_append]

theorem Composed.isAnnounced {computation : Exec arch α} (composed : Composed computation) :
    Machine.IsAnnounced computation.after := by
  intro machine
  obtain ⟨events, told⟩ := composed.announced machine
  refine ⟨events, fun hub => ?_⟩
  unfold after
  rw [told hub]
  cases computation machine <;> rfl

end Exec

/-! ## Changes with a queue of their own -/

namespace Machine

/-- At every machine the change tells of itself between the start of a queue and a flush. -/
def IsBracketed (change : Machine arch → Machine arch) : Prop :=
  ∀ machine, ∃ events, ∀ hub,
    change (machine.withHub hub) =
      (change machine).withHub (hub.startQueue.publishAll events).flush

theorem IsAnnounced.bracketed {change : Machine arch → Machine arch}
    (announced : IsAnnounced change) :
    IsBracketed fun machine => (change machine.startQueue).flush := by
  intro machine
  obtain ⟨events, told⟩ := announced machine.startQueue
  exact ⟨events, fun hub => congrArg flush (told hub.startQueue)⟩

theorem isBracketed_commit (assembler : Assembler arch) : IsBracketed assembler.commit :=
  (isAnnounced_reset.comp ((isAnnounced_setLabels _).comp (isAnnounced_writeImage _))).bracketed

theorem isBracketed_takeCells (values : List UInt8) :
    IsBracketed fun machine : Machine arch =>
      (machine.startQueue.takeCells 0 values).refreshTexts.flush :=
  (isAnnounced_refreshTexts.comp (isAnnounced_takeCells 0 values)).bracketed

/-! ## Operations -/

namespace Action

/-- The action is an operation of the machine, and leaves the queue to its caller. -/
def isOperation : Action → Bool
  | .startQueue | .flush => false
  | _ => true

end Action

/-- A build without errors or a memory image that is not refused is put into the machine. -/
def installs (machine : Machine arch) : Action → Bool
  | .assemble assembler source =>
      let built := assembler.assemble machine source
      built.errors.isEmpty && built.fault.isNone
  | .importImage image => (machine.importImage image).isOk
  | _ => false

/-- What a hub hears of an operation. -/
def heardBy (hub : Hub) (installs : Bool) (events : List Event) : Hub :=
  if installs then (hub.startQueue.publishAll events).flush else hub.publishAll events

/-- At a machine the action is the same whoever listens, and tells of itself by these events. -/
def TellsOf (machine : Machine arch) (action : Action) (events : List Event) : Prop :=
  ∀ hub, (machine.withHub hub).perform action =
    (machine.perform action).withHub (heardBy hub (machine.installs action) events)

section Operations

variable {machine : Machine arch} {action : Action}

theorem tellsOf_of_announced (announced : IsAnnounced fun machine : Machine arch =>
    machine.perform action) (elsewhere : machine.installs action = false) :
    ∃ events, machine.TellsOf action events := by
  obtain ⟨events, told⟩ := announced machine
  refine ⟨events, fun hub => ?_⟩
  rw [elsewhere]
  exact told hub

theorem tellsOf_assemble {before : Architecture} (assembler : Assembler before)
    (source : String) : ∃ events, machine.TellsOf (.assemble assembler source) events := by
  cases installed : machine.installs (.assemble assembler source) with
  | true =>
      obtain ⟨noErrors, noFault⟩ : (assembler.assemble machine source).errors = [] ∧
          (assembler.assemble machine source).fault = none := by
        simpa [installs] using installed
      obtain ⟨events, told⟩ :=
        isBracketed_commit (assembler.assemble machine source).assembler machine
      refine ⟨events, fun hub => ?_⟩
      obtain ⟨errors, fault, tables⟩ :=
        assembler.tables_assemble assembler (machine.withHub hub) machine source
      change (assembler.assemble (machine.withHub hub) source).machine =
        (assembler.assemble machine source).machine.withHub _
      rw [assembler.machine_assemble _ source (errors.trans noErrors) (fault.trans noFault),
        assembler.machine_assemble machine source noErrors noFault, tables, told hub, installed]
      rfl
  | false =>
      have unchanged : ∀ other : Machine arch,
          other.installs (.assemble assembler source) = false →
            other.perform (.assemble assembler source) = other := by
        intro other refused
        change (assembler.assemble other source).machine = other
        rcases assembler.assemble_cases other source with
          ⟨_, ended⟩ | ⟨_, _, ended⟩ | ⟨_, _, ended⟩
        · rw [ended]
        · rw [ended]
        · simp [installs, ended] at refused
      refine ⟨[], fun hub => ?_⟩
      have refused : (machine.withHub hub).installs (.assemble assembler source) = false := by
        obtain ⟨errors, fault, _⟩ :=
          assembler.tables_assemble assembler (machine.withHub hub) machine source
        rw [← installed]
        simp only [installs, errors, fault]
      rw [unchanged _ refused, unchanged _ installed, installed]
      rfl

theorem tellsOf_importImage (image : List UInt8) :
    ∃ events, machine.TellsOf (.importImage image) events := by
  cases found : MemoryImage.cells arch image with
  | error refusal =>
      refine ⟨[], fun hub => ?_⟩
      simp only [perform, installs, importImage, found]
      rfl
  | ok values =>
      obtain ⟨events, told⟩ := isBracketed_takeCells values machine
      refine ⟨events, fun hub => ?_⟩
      simp only [perform, installs, importImage, found]
      exact told hub

/-- Every operation is the same whoever listens, and tells of itself by some events. -/
theorem tellsOf_operation (machine : Machine arch) (operation : action.isOperation = true) :
    ∃ events, machine.TellsOf action events := by
  cases action with
  | poke address value => exact tellsOf_of_announced (isAnnounced_poke address value) rfl
  | pokeStack index value =>
      exact tellsOf_of_announced (isAnnounced_pokeStack (fun _ _ => rfl) value) rfl
  | setRegister name value =>
      refine tellsOf_of_announced ?_ rfl
      simp only [perform, setRegisterNamed]
      split
      · exact .of_id
      · cases findRegister arch name with
        | ok index => exact isAnnounced_setRegister index fun _ _ => rfl
        | error fault => exact .of_id
  | setCounter value =>
      exact tellsOf_of_announced (isAnnounced_setRegister _ fun _ _ => rfl) rfl
  | setCode code value => exact tellsOf_of_announced (isAnnounced_setCode code value) rfl
  | setFlag name value =>
      refine tellsOf_of_announced ?_ rfl
      simp only [perform, setFlagNamed]
      cases findFlag arch name with
      | ok index => exact isAnnounced_setFlag index value
      | error fault => exact .of_id
  | setRunning value => exact tellsOf_of_announced (isAnnounced_setRunning value) rfl
  | clearCounts => exact tellsOf_of_announced isAnnounced_clearCounts rfl
  | reset => exact tellsOf_of_announced isAnnounced_reset rfl
  | refreshTexts => exact tellsOf_of_announced isAnnounced_refreshTexts rfl
  | step => exact tellsOf_of_announced Exec.composed_step.isAnnounced rfl
  | run limit => exact tellsOf_of_announced (Exec.composed_run limit).isAnnounced rfl
  | assemble assembler source => exact tellsOf_assemble assembler source
  | importImage image => exact tellsOf_importImage image
  | startQueue | flush => contradiction

end Operations

/-! ## What is published -/

end Machine

/-- A hub with one listener, who hears every event. -/
def Hub.recorder : Hub :=
  (Hub.empty.subscribe everyTopic).2

theorem Hub.told_recorder (events : List Event) :
    recorder.told events = events.map fun event => ⟨0, event⟩ := by
  have alone (event : Event) : recorder.receivers event = [0] := by
    have other : (event.topic == everyTopic) = false := by
      simpa using topic_ne_everyTopic event
    have filed : recorder.listeners = [(everyTopic, [0])] := by decide
    simp [receivers, filed, List.lookup_cons, other]
  simp only [told, alone, List.map_singleton]
  induction events with
  | nil => rfl
  | cons event events induction => simpa using induction

namespace Machine

/-- The events that a machine publishes at an action: those that somebody hears who hears all. -/
def published (machine : Machine arch) (action : Action) : List Event :=
  ((machine.withHub .recorder).perform action).hub.deliveries.toList.map Delivery.event

theorem TellsOf.published {machine : Machine arch} {action : Action} {events : List Event}
    (tells : machine.TellsOf action events) : machine.published action = events := by
  have hears : Hub.HasTold .recorder
      (heardBy .recorder (machine.installs action) events) events := by
    unfold heardBy
    split
    · exact Hub.hasTold_flush _ events
    · exact Hub.hasTold_publishAll rfl events
  have nothing : Hub.recorder.deliveries.toList = [] := rfl
  have direct : Hub.recorder.pending = [] := rfl
  rw [Machine.published, tells, hub_withHub, hears.deliveries, nothing, direct, List.nil_append,
    List.nil_append, Hub.told_recorder, List.map_map]
  exact List.map_id events

/-- The events that a machine publishes at some actions. -/
def publishedAll (machine : Machine arch) : List Action → List Event
  | [] => []
  | action :: actions =>
      machine.published action ++ (machine.perform action).publishedAll actions

/-- One of the actions puts a build or a memory image into the machine. -/
def installsAny (machine : Machine arch) : List Action → Bool
  | [] => false
  | action :: actions => machine.installs action || (machine.perform action).installsAny actions

/-! ## The queue of a caller -/

end Machine

/-- Since `start` events were held back, and told of if something was put into the machine. -/
def Hub.Heard (start after : Hub) (installed : Bool) (events : List Event) : Prop :=
  if installed then HasTold start after events else HoldsBack start after events

namespace Hub.Heard

variable {start after : Hub} {installed : Bool} {events further : List Event}

/-- What holds behind some operations holds behind one more. -/
theorem operation (heard : Heard start after installed events) (installs : Bool) :
    Heard start (Machine.heardBy after installs further) (installed || installs)
      (events ++ further) := by
  unfold Heard Machine.heardBy at *
  cases installed with
  | true =>
      rw [if_pos rfl] at heard
      rw [Bool.true_or, if_pos rfl]
      split
      · exact heard.trans (hasTold_flush after further)
      · exact heard.trans (hasTold_publishAll heard.direct further)
  | false =>
      have holds : HoldsBack start after events := by simpa using heard
      cases installs with
      | true =>
          rw [Bool.false_or, if_pos rfl, if_pos rfl, holds.startQueue]
          exact (holds.publishAll further).flush
      | false => simpa using holds.publishAll further

theorem flush (heard : Heard start after installed events) : HasTold start after.flush events := by
  cases installed with
  | true =>
      have told : HasTold start after events := by simpa [Heard] using heard
      rwa [told.flush]
  | false =>
      have holds : HoldsBack start after events := by simpa [Heard] using heard
      exact holds.flush

end Hub.Heard

namespace Machine

theorem heard_performAll {start : Hub} {machine : Machine arch} {installed : Bool}
    {events : List Event} (heard : start.Heard machine.hub installed events)
    (actions : List Action) (operations : ∀ action ∈ actions, action.isOperation = true) :
    start.Heard (machine.performAll actions).hub (installed || machine.installsAny actions)
      (events ++ machine.publishedAll actions) := by
  induction actions generalizing machine installed events with
  | nil => simpa [performAll, installsAny, publishedAll] using heard
  | cons action actions induction =>
      obtain ⟨told, tells⟩ :=
        tellsOf_operation machine (operations action (List.mem_cons_self ..))
      have here : (machine.perform action).hub =
          heardBy machine.hub (machine.installs action) told :=
        congrArg hub (tells machine.hub)
      have next : start.Heard (heardBy machine.hub (machine.installs action) told) _ _ :=
        heard.operation (machine.installs action)
      rw [← here] at next
      have rest := induction next fun action among => operations action (List.mem_cons_of_mem _ among)
      rw [installsAny, publishedAll, tells.published, ← Bool.or_assoc, ← List.append_assoc]
      exact rest

/-- What the listeners know between the start of a queue and a flush. -/
theorem heard_startQueue (machine : Machine arch) (actions : List Action)
    (operations : ∀ action ∈ actions, action.isOperation = true) :
    machine.hub.Heard (machine.startQueue.performAll actions).hub
      (machine.startQueue.installsAny actions) (machine.startQueue.publishedAll actions) := by
  have begun : machine.hub.Heard machine.startQueue.hub false [] := by
    rw [Hub.Heard, if_neg Bool.false_ne_true]
    exact Hub.holdsBack_startQueue machine.hub
  simpa using heard_performAll begun actions operations

/-- No listener is called before the flush, which then tells all that was published meanwhile. -/
def KeepsQueue (machine : Machine arch) (actions : List Action) : Prop :=
  let start := machine.startQueue
  let after := start.performAll actions
  after.hub.deliveries = machine.hub.deliveries ∧
    after.flush.hub.deliveries.toList = after.hub.deliveries.toList ++
      machine.hub.told (machine.hub.pending ++ start.publishedAll actions)

/--
Between the start of a queue and a flush the listeners are told of every event
once and in order.  They are told at the flush unless a build or a memory image
was put into the machine, which ends the queue before.
-/
theorem deliveries_queue_flush (machine : Machine arch) (actions : List Action)
    (operations : ∀ action ∈ actions, action.isOperation = true) :
    let start := machine.startQueue
    let after := start.performAll actions
    let events := machine.hub.pending ++ start.publishedAll actions
    after.flush.hub.deliveries.toList =
        machine.hub.deliveries.toList ++ machine.hub.told events ∧
      after.hub.isQueueing = !start.installsAny actions ∧
      (machine.KeepsQueue actions ↔
        start.installsAny actions = false ∨ machine.hub.told events = []) := by
  intro start after events
  have heard : machine.hub.Heard after.hub (start.installsAny actions)
      (start.publishedAll actions) := heard_startQueue machine actions operations
  have flushed : after.flush.hub.deliveries.toList =
      machine.hub.deliveries.toList ++ machine.hub.told events := heard.flush.deliveries
  refine ⟨flushed, ?_⟩
  change after.hub.isQueueing = _ ∧ (after.hub.deliveries = machine.hub.deliveries ∧
    after.flush.hub.deliveries.toList = after.hub.deliveries.toList ++ machine.hub.told events ↔ _)
  rw [flushed]
  cases installed : start.installsAny actions with
  | false =>
      have holds : Hub.HoldsBack machine.hub after.hub (start.publishedAll actions) := by
        simpa [Hub.Heard, installed] using heard
      exact ⟨holds.queueing, by simp [holds.deliveries]⟩
  | true =>
      have told : Hub.HasTold machine.hub after.hub (start.publishedAll actions) := by
        simpa [Hub.Heard, installed] using heard
      refine ⟨by simp [Hub.isQueueing, told.direct], ?_⟩
      rw [← Array.toList_inj, told.deliveries]
      simp [events]

/-- A step and a refused build leave the queue to its caller. -/
theorem deliveries_queue_flush_step :
    let machine := ((Machine.new Catalog.neander).subscribe everyTopic).2
    let actions := [Action.poke 0 0x60, .step, .assemble (Assembler.new Catalog.neander) "sta"]
    (∀ action ∈ actions, action.isOperation = true) ∧
      machine.startQueue.installsAny actions = false ∧ machine.KeepsQueue actions := by
  intro machine actions
  have operations : ∀ action ∈ actions, action.isOperation = true := by
    simp [actions, Action.isOperation]
  have leaves : machine.startQueue.installsAny actions = false := by decide +kernel
  exact ⟨operations, leaves,
    (deliveries_queue_flush machine actions operations).2.2.mpr (.inl leaves)⟩

/-- A build ends the queue of a caller: what is written behind it is told before the flush. -/
theorem not_keepsQueue_of_build :
    let machine := ((Machine.new Catalog.neander).subscribe everyTopic).2
    let actions := [Action.assemble (Assembler.new Catalog.neander) "db 1", .poke 0 2]
    ¬ machine.KeepsQueue actions := by
  intro machine actions keeps
  let start := machine.startQueue
  have operations : ∀ action ∈ actions, action.isOperation = true := by
    simp [actions, Action.isOperation]
  have installs : start.installsAny actions = true := by decide +kernel
  have told : Hub.HasTold machine.hub (start.performAll actions).hub
      (start.publishedAll actions) := by
    have heard := heard_startQueue machine actions operations
    rwa [installs, Hub.Heard, if_pos rfl] at heard
  have listened : machine.hub = Hub.recorder := rfl
  have nothing : machine.hub.pending = [] := rfl
  have silent : machine.hub.told (start.publishedAll actions) = [] := by
    have deliveries := told.deliveries
    rw [keeps.1, nothing, List.nil_append] at deliveries
    exact List.append_cancel_left (deliveries.symm.trans (List.append_nil _).symm)
  have written (machine : Machine Catalog.neander) :
      machine.published (.poke 0 2) = [.memory 0 2] :=
    TellsOf.published fun _ => rfl
  rw [listened, Hub.told_recorder, publishedAll, publishedAll, written] at silent
  simp at silent

end Machine

end ClassroomCpu
