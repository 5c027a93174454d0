import ClassroomCpu.MemoryImage
import ClassroomCpu.Proofs.Event.Delivery
import ClassroomCpu.Proofs.Machine.Refresh

/-!
# Published events

What a machine does is the same whoever listens, and so are the events by which
it tells of it: another hub in the place of its own hears them in the same
order.  A hub that holds events back lets no listener hear them until it is
flushed.
-/

namespace ClassroomCpu

namespace Hub

variable {hub start between after : Hub}

/-- The deliveries by which events are told to the listeners, one event after the other. -/
def told (hub : Hub) (events : List Event) : List Delivery :=
  events.flatMap fun event => (hub.receivers event).map fun listener => ⟨listener, event⟩

/-- Publishes events in their order. -/
def publishAll (hub : Hub) (events : List Event) : Hub :=
  events.foldl publish hub

@[simp] theorem publishAll_nil (hub : Hub) : hub.publishAll [] = hub := rfl

theorem publishAll_append (hub : Hub) (events further : List Event) :
    hub.publishAll (events ++ further) = (hub.publishAll events).publishAll further :=
  List.foldl_append

theorem told_append (hub : Hub) (events further : List Event) :
    hub.told (events ++ further) = hub.told events ++ hub.told further :=
  List.flatMap_append

theorem told_congr (same : after.listeners = hub.listeners) (events : List Event) :
    after.told events = hub.told events := by
  simp only [told, receivers, same]

theorem told_of_isEmpty (nobody : hub.isEmpty = true) (events : List Event) :
    hub.told events = [] := by
  have noEntry : hub.listeners = [] := by simpa [isEmpty] using nobody
  simp [told, receivers, noEntry]

theorem deliveries_foldl_dispatch (hub : Hub) (events : List Event) :
    (events.foldl dispatch hub).listeners = hub.listeners ∧
      (events.foldl dispatch hub).queue = hub.queue ∧
      (events.foldl dispatch hub).deliveries.toList =
        hub.deliveries.toList ++ hub.told events := by
  induction events generalizing hub with
  | nil => exact ⟨rfl, rfl, by simp [told]⟩
  | cons event events induction =>
      obtain ⟨listeners, queue, deliveries⟩ := induction (hub.dispatch event)
      have toldLater : (hub.dispatch event).told events = hub.told events := told_congr rfl events
      refine ⟨listeners, queue, ?_⟩
      rw [List.foldl_cons, deliveries, deliveries_dispatch, List.append_assoc, toldLater]
      rfl

/-! ## Events that are told, and events that are held back -/

/-- Since `start` the listeners were told of some events, and none is held back. -/
structure HasTold (start after : Hub) (events : List Event) : Prop where
  listeners : after.listeners = start.listeners
  direct : after.queue = none
  deliveries : after.deliveries.toList =
    start.deliveries.toList ++ start.told (start.pending ++ events)

/-- Since `start` no listener was called, and some events are held back behind earlier ones. -/
structure HoldsBack (start after : Hub) (events : List Event) : Prop where
  listeners : after.listeners = start.listeners
  queueing : after.isQueueing = true
  deliveries : after.deliveries = start.deliveries
  pending : start.told after.pending = start.told (start.pending ++ events)

theorem holdsBack_startQueue (hub : Hub) : HoldsBack hub hub.startQueue [] := by
  unfold startQueue
  split
  · rename_i queue held
    exact ⟨rfl, by simp [isQueueing, held], rfl, by simp⟩
  · rename_i direct
    exact ⟨rfl, rfl, rfl, by simp [pending, direct]⟩

namespace HoldsBack

variable {events further : List Event}

theorem publish (holds : HoldsBack start after events) (event : Event) :
    HoldsBack start (after.publish event) (events ++ [event]) := by
  obtain ⟨queue, held⟩ := Option.isSome_iff_exists.mp holds.queueing
  unfold Hub.publish
  split
  · -- An event that nobody hears is lost, and is not missed.
    rename_i nobody
    have silence := told_of_isEmpty nobody
    have silent : ∀ events, start.told events = [] := fun events => by
      rw [← told_congr holds.listeners, silence]
    exact { holds with pending := by rw [silent, silent] }
  · rw [held]
    refine ⟨holds.listeners, rfl, holds.deliveries, ?_⟩
    have behind : Hub.pending { after with queue := some (queue.push event) } =
        after.pending ++ [event] := by
      simp [Hub.pending, held]
    rw [behind, told_append, holds.pending, ← told_append, List.append_assoc]

/-- What is published meanwhile is held back behind the rest. -/
theorem publishAll (holds : HoldsBack start after events) (further : List Event) :
    HoldsBack start (after.publishAll further) (events ++ further) := by
  induction further generalizing after events with
  | nil => simpa using holds
  | cons event further induction =>
      have here := induction (holds.publish event)
      rwa [List.append_assoc] at here

/-- A flush tells what was held back. -/
theorem flush (holds : HoldsBack start after events) : HasTold start after.flush events := by
  obtain ⟨queue, held⟩ := Option.isSome_iff_exists.mp holds.queueing
  have same : after.pending = queue.toList := by simp [Hub.pending, held]
  let released : Hub := { after with queue := none }
  have toldHere : released.told queue.toList = start.told queue.toList :=
    told_congr holds.listeners queue.toList
  have toldBy : released.told queue.toList = start.told (start.pending ++ events) := by
    rw [toldHere, ← same, holds.pending]
  obtain ⟨listeners, direct, deliveries⟩ := deliveries_foldl_dispatch released queue.toList
  rw [Array.foldl_toList] at listeners direct deliveries
  unfold Hub.flush
  rw [held]
  refine ⟨listeners.trans holds.listeners, direct, deliveries.trans ?_⟩
  rw [toldBy, ← holds.deliveries]

theorem startQueue (holds : HoldsBack start after events) : after.startQueue = after := by
  obtain ⟨queue, held⟩ := Option.isSome_iff_exists.mp holds.queueing
  rw [Hub.startQueue, held]

end HoldsBack

namespace HasTold

variable {events further : List Event}

theorem flush (told : HasTold start after events) : after.flush = after := by
  rw [Hub.flush, told.direct]

theorem trans (first : HasTold start between events) (second : HasTold between after further) :
    HasTold start after (events ++ further) where
  listeners := second.listeners.trans first.listeners
  direct := second.direct
  deliveries := by
    have nothing : between.pending = [] := by simp [pending, first.direct]
    rw [second.deliveries, first.deliveries, nothing, List.nil_append,
      told_congr first.listeners, List.append_assoc, ← told_append, List.append_assoc]

end HasTold

/-- A hub that holds nothing back tells at once. -/
theorem hasTold_publishAll (direct : hub.queue = none) (events : List Event) :
    HasTold hub (hub.publishAll events) events := by
  have nothing : hub.pending = [] := by simp [pending, direct]
  induction events generalizing hub with
  | nil => exact ⟨rfl, direct, by simp [nothing, told]⟩
  | cons event events induction =>
      have first : HasTold hub (hub.publish event) [event] := by
        unfold publish
        split
        · rename_i nobody
          exact ⟨rfl, direct, by rw [told_of_isEmpty nobody, List.append_nil]⟩
        · rw [direct]
          obtain ⟨listeners, queue, deliveries⟩ := deliveries_foldl_dispatch hub [event]
          exact ⟨listeners, queue.trans direct, by rw [nothing]; exact deliveries⟩
      exact first.trans (induction first.direct (by simp [pending, first.direct]))

/-- Between a queue of its own and its end a hub tells what was published, after what was held. -/
theorem hasTold_flush (hub : Hub) (events : List Event) :
    HasTold hub (hub.startQueue.publishAll events).flush events :=
  ((holdsBack_startQueue hub).publishAll events).flush

end Hub

/-! ## Changes of a machine -/

namespace Machine

variable {arch : Architecture}

/-- The machine with other listeners. -/
def withHub (machine : Machine arch) (hub : Hub) : Machine arch :=
  { machine with hub }

@[simp] theorem hub_withHub (machine : Machine arch) (hub : Hub) :
    (machine.withHub hub).hub = hub := rfl

/-- At every machine the change is the same whoever listens, and tells of itself by some events. -/
def IsAnnounced (change : Machine arch → Machine arch) : Prop :=
  ∀ machine, ∃ events, ∀ hub,
    change (machine.withHub hub) = (change machine).withHub (hub.publishAll events)

namespace IsAnnounced

variable {change further : Machine arch → Machine arch}

theorem of_id : IsAnnounced (id : Machine arch → Machine arch) :=
  fun _ => ⟨[], fun _ => rfl⟩

theorem of_event {event : Machine arch → Event}
    (told : ∀ machine hub,
      change (machine.withHub hub) = (change machine).withHub (hub.publish (event machine))) :
    IsAnnounced change :=
  fun machine => ⟨[event machine], told machine⟩

theorem comp (second : IsAnnounced further) (first : IsAnnounced change) :
    IsAnnounced (further ∘ change) := by
  intro machine
  obtain ⟨events, told⟩ := first machine
  obtain ⟨more, toldMore⟩ := second (change machine)
  refine ⟨events ++ more, fun hub => ?_⟩
  simp only [Function.comp_apply, told, toldMore, Hub.publishAll_append]

/-- Which of two changes is made must not depend on the listeners. -/
theorem ite {condition : Machine arch → Prop} [DecidablePred condition]
    (deaf : ∀ machine hub, condition (machine.withHub hub) ↔ condition machine)
    (yes : IsAnnounced change) (no : IsAnnounced further) :
    IsAnnounced fun machine => if condition machine then change machine else further machine := by
  intro machine
  by_cases holds : condition machine
  · obtain ⟨events, told⟩ := yes machine
    exact ⟨events, fun hub => by simp only [deaf, holds, if_true, told]⟩
  · obtain ⟨events, told⟩ := no machine
    exact ⟨events, fun hub => by simp only [deaf, holds, if_false, told]⟩

theorem foldl {Index : Type} {step : Machine arch → Index → Machine arch}
    (each : ∀ index, IsAnnounced fun machine => step machine index) (indices : List Index) :
    IsAnnounced fun machine => indices.foldl step machine := by
  induction indices with
  | nil => exact of_id
  | cons index indices induction => exact induction.comp (each index)

end IsAnnounced

/-! ## Single changes -/

/-- What is read off a machine does not depend on its listeners. -/
def IsDeaf {Part : Type} (part : Machine arch → Part) : Prop :=
  ∀ machine hub, part (machine.withHub hub) = part machine

theorem isAnnounced_poke (address : Nat) (value : Int) :
    IsAnnounced fun machine : Machine arch => machine.poke address value :=
  .of_event fun _ _ => rfl

theorem isAnnounced_pokeStack {index : Machine arch → Nat} (deaf : IsDeaf index) (value : Int) :
    IsAnnounced fun machine : Machine arch => machine.pokeStack (index machine) value := by
  intro machine
  unfold pokeStack
  cases found : stackCell? arch (index machine) with
  | none => exact ⟨[], fun hub => by simp only [deaf machine hub, found]; rfl⟩
  | some cell =>
      exact ⟨[.stack cell (UInt8.ofInt value)], fun hub => by
        simp only [deaf machine hub, found]; rfl⟩

theorem isAnnounced_setRegister (index : Fin arch.registers.length)
    {value : Machine arch → Int} (deaf : IsDeaf value) :
    IsAnnounced fun machine : Machine arch => machine.setRegister index (value machine) := by
  apply IsAnnounced.of_event
  intro machine hub
  rw [deaf machine hub]
  rfl

theorem isAnnounced_setRegister? (index : Option (Fin arch.registers.length))
    {value : Machine arch → Int} (deaf : IsDeaf value) :
    IsAnnounced fun machine : Machine arch => machine.setRegister? (value machine) index := by
  cases index with
  | none => exact .of_id
  | some index => exact isAnnounced_setRegister index deaf

theorem isAnnounced_setFlag (index : Fin arch.flags.length) (value : Bool) :
    IsAnnounced fun machine : Machine arch => machine.setFlag index value :=
  .of_event fun _ _ => rfl

theorem isAnnounced_setCode (code : FlagCode) (value : Bool) :
    IsAnnounced fun machine : Machine arch => machine.setCode code value := by
  unfold setCode
  split
  · exact isAnnounced_setFlag _ value
  · exact .of_id

theorem isAnnounced_setRunning (value : Bool) :
    IsAnnounced fun machine : Machine arch => machine.setRunning value :=
  .of_event fun _ _ => rfl

theorem isAnnounced_setInstructionCount {count : Machine arch → Nat} (deaf : IsDeaf count) :
    IsAnnounced fun machine => machine.setInstructionCount (count machine) := by
  apply IsAnnounced.of_event
  intro machine hub
  rw [deaf machine hub]
  rfl

theorem isAnnounced_setAccessCount {count : Machine arch → Nat} (deaf : IsDeaf count) :
    IsAnnounced fun machine => machine.setAccessCount (count machine) := by
  apply IsAnnounced.of_event
  intro machine hub
  rw [deaf machine hub]
  rfl

theorem isAnnounced_countAccess : IsAnnounced (countAccess : Machine arch → Machine arch) := by
  have deaf : IsDeaf fun machine : Machine arch => machine.accessCount + 1 := fun _ _ => rfl
  exact isAnnounced_setAccessCount deaf

theorem isAnnounced_clearCounts : IsAnnounced (clearCounts : Machine arch → Machine arch) := by
  have deaf : IsDeaf fun _ : Machine arch => 0 := fun _ _ => rfl
  exact (isAnnounced_setAccessCount deaf).comp (isAnnounced_setInstructionCount deaf)

theorem isAnnounced_setText (cell : Fin arch.memorySize) (text : String) :
    IsAnnounced fun machine : Machine arch => machine.setText cell text :=
  .ite (fun _ _ => Iff.rfl) .of_id (.of_event fun _ _ => rfl)

theorem isAnnounced_setLabel (cell : Fin arch.memorySize) (label : String) :
    IsAnnounced fun machine : Machine arch => machine.setLabel cell label :=
  .ite (fun _ _ => Iff.rfl) .of_id (.of_event fun _ _ => rfl)

/-! ## Operations on the whole machine -/

theorem isAnnounced_clearTexts (address count : Nat) :
    IsAnnounced fun machine : Machine arch => machine.clearTexts address count := by
  induction count generalizing address with
  | zero => exact .of_id
  | succ count induction =>
      unfold clearTexts
      split
      · exact (induction (address + 1)).comp (isAnnounced_setText _ "")
      · exact .of_id

theorem isAnnounced_refreshTextsFrom (address : Nat) :
    IsAnnounced fun machine : Machine arch => machine.refreshTextsFrom address := by
  intro machine
  change ∃ events, ∀ hub, (machine.withHub hub).refreshTextsFrom address =
    (machine.refreshTextsFrom address).withHub (hub.publishAll events)
  fun_induction machine.refreshTextsFrom address with
  | case1 machine address inside shown =>
      rename_i induction
      obtain ⟨events, told⟩ :=
        ((isAnnounced_clearTexts (address + 1) (shown.size - 1)).comp
          (isAnnounced_setText ⟨address, inside⟩ shown.text)) machine
      obtain ⟨more, toldMore⟩ := induction
      refine ⟨events ++ more, fun hub => ?_⟩
      have memory : (machine.withHub hub).memory = machine.memory := rfl
      have same : (machine.withHub hub).instructionText address = shown :=
        instructionText_of_memory memory address
      rw [refreshTextsFrom.eq_def (machine.withHub hub), dif_pos inside]
      dsimp only
      rw [same, Hub.publishAll_append, ← toldMore]
      exact congrArg (refreshTextsFrom · (address + max shown.size 1)) (told hub)
  | case2 machine address outside =>
      refine ⟨[], fun hub => ?_⟩
      rw [refreshTextsFrom.eq_def, dif_neg outside, Hub.publishAll_nil]

theorem isAnnounced_refreshTexts : IsAnnounced (refreshTexts : Machine arch → Machine arch) :=
  isAnnounced_refreshTextsFrom 0

theorem isAnnounced_reset : IsAnnounced (reset : Machine arch → Machine arch) := by
  have registers : IsAnnounced (resetRegisters : Machine arch → Machine arch) :=
    .foldl (fun index => isAnnounced_setRegister index fun _ _ => rfl) _
  have flags : IsAnnounced (resetFlags : Machine arch → Machine arch) :=
    .foldl (fun index => isAnnounced_setFlag index _) _
  have stack : IsAnnounced (resetStack : Machine arch → Machine arch) :=
    .foldl (fun index => isAnnounced_pokeStack (fun _ _ => rfl) 0) _
  exact isAnnounced_refreshTexts.comp ((isAnnounced_setRunning false).comp
    (isAnnounced_clearCounts.comp (stack.comp (flags.comp registers))))

theorem isAnnounced_writeImage (memory : Vector UInt8 arch.memorySize) :
    IsAnnounced fun machine : Machine arch => machine.writeImage memory :=
  .foldl (fun _ => .ite (fun _ _ => Iff.rfl) .of_id (isAnnounced_poke _ _)) _

theorem isAnnounced_setLabels (labels : Vector String arch.memorySize) :
    IsAnnounced fun machine : Machine arch => machine.setLabels labels :=
  .foldl (fun cell => isAnnounced_setLabel cell _) _

theorem isAnnounced_takeCells (address : Nat) (values : List UInt8) :
    IsAnnounced fun machine : Machine arch => machine.takeCells address values := by
  induction values generalizing address with
  | nil => exact .of_id
  | cons value values induction =>
      have poked : IsAnnounced fun machine : Machine arch =>
          if machine.peek address = value then machine else machine.poke address value.toNat :=
        .ite (fun _ _ => Iff.rfl) .of_id (isAnnounced_poke _ _)
      exact (induction (address + 1)).comp ((isAnnounced_setLabel _ "").comp poked)

end Machine

end ClassroomCpu
