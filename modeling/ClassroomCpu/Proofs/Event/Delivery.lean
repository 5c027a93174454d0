import ClassroomCpu.Proofs.Event.Snapshot
import Mathlib.Data.List.Basic

/-!
# What a listener hears

A listener for every event hears each event once it is published and no longer
held back.  What it has heard and what is still held back for it tell the same
story however events are queued and flushed.
-/

namespace ClassroomCpu

/-- What a listener heard in some deliveries. -/
def heard (listener : Nat) (deliveries : List Delivery) : List Event :=
  (deliveries.filter fun delivery => delivery.listener = listener).map Delivery.event

namespace Hub

/-- The listener is registered for every event. -/
def HearsAll (hub : Hub) (listener : Nat) : Prop :=
  listener ∈ (hub.listeners.lookup everyTopic).getD []

theorem mem_lookup_file (topic : String) (listener : Nat) (entries : List (String × List Nat)) :
    listener ∈ ((file topic listener entries).lookup topic).getD [] := by
  induction entries with
  | nil => simp [file]
  | cons entry entries induction =>
      rw [file]
      split
      · simp
      · rename_i other
        have differs : (topic == entry.1) = false := by simpa using Ne.symm other
        rwa [List.lookup_cons, differs]

/-- Who is registered for every event is a listener for every event. -/
theorem hearsAll_subscribe (hub : Hub) :
    (hub.subscribe everyTopic).2.HearsAll (hub.subscribe everyTopic).1.listener :=
  mem_lookup_file everyTopic hub.next hub.listeners

/-- The events that are held back. -/
def pending (hub : Hub) : List Event :=
  (hub.queue.getD #[]).toList

/-- What a listener heard since a hub was as it is at the start. -/
def heardSince (hub start : Hub) (listener : Nat) : List Event :=
  heard listener (hub.deliveries.toList.drop start.deliveries.size)

/--
From one hub to a later one a listener is told about some events: what it heard
in between and what is held back afterwards have the effect of what was held
back before and of these events.
-/
structure Tells (listener : Nat) (hub after : Hub) (events : List Event) : Prop where
  listeners : after.listeners = hub.listeners
  delivered : ∃ deliveries, after.deliveries.toList = hub.deliveries.toList ++ deliveries ∧
    ∀ snapshot : Snapshot, snapshot.replay (heard listener deliveries ++ after.pending) =
      snapshot.replay (hub.pending ++ events)

variable {hub after : Hub} {listener : Nat}

theorem HearsAll.later {events : List Event} (hears : hub.HearsAll listener)
    (tells : Tells listener hub after events) : after.HearsAll listener := by
  rw [HearsAll, tells.listeners]
  exact hears

namespace Tells

theorem refl (hub : Hub) : Tells listener hub hub [] where
  listeners := rfl
  delivered := ⟨[], by simp, by simp [heard]⟩

theorem trans {later : Hub} {events further : List Event}
    (first : Tells listener hub after events) (second : Tells listener after later further) :
    Tells listener hub later (events ++ further) := by
  obtain ⟨deliveries, delivered, told⟩ := first.delivered
  obtain ⟨others, deliveredLater, toldLater⟩ := second.delivered
  refine ⟨second.listeners.trans first.listeners, deliveries ++ others, ?_, ?_⟩
  · rw [deliveredLater, delivered, List.append_assoc]
  · intro snapshot
    have split : heard listener (deliveries ++ others) =
        heard listener deliveries ++ heard listener others := by
      simp [heard]
    calc
      snapshot.replay (heard listener (deliveries ++ others) ++ later.pending) =
          (snapshot.replay (heard listener deliveries)).replay
            (heard listener others ++ later.pending) := by
        rw [split, List.append_assoc, Snapshot.replay_append]
      _ = (snapshot.replay (heard listener deliveries)).replay (after.pending ++ further) :=
        toldLater _
      _ = (snapshot.replay (heard listener deliveries ++ after.pending)).replay further := by
        rw [← Snapshot.replay_append, ← Snapshot.replay_append, List.append_assoc]
      _ = (snapshot.replay (hub.pending ++ events)).replay further := by rw [told]
      _ = snapshot.replay (hub.pending ++ (events ++ further)) := by
        rw [← Snapshot.replay_append, List.append_assoc]

end Tells

/-! ## Single deliveries -/

theorem deliveries_dispatch (hub : Hub) (event : Event) :
    (hub.dispatch event).deliveries.toList =
      hub.deliveries.toList ++ (hub.receivers event).map fun listener => ⟨listener, event⟩ := by
  rw [Hub.dispatch, List.foldl_push_eq_append, Array.toList_append, List.toList_toArray]

theorem heard_map (receivers : List Nat) (event : Event) :
    heard listener (receivers.map fun listener => ⟨listener, event⟩) =
      List.replicate (receivers.count listener) event := by
  induction receivers with
  | nil => rfl
  | cons receiver receivers induction =>
      rw [List.map_cons, heard, List.filter_cons, List.count_cons]
      by_cases same : receiver = listener
      · simp only [same, decide_true, if_true, List.map_cons, beq_self_eq_true]
        rw [← heard, induction, ← List.replicate_succ]
      · simpa [same, heard] using induction

/-- A listener for every event hears an event that is delivered. -/
theorem tells_dispatch (hears : hub.HearsAll listener) (direct : hub.queue = none)
    (event : Event) : Tells listener hub (hub.dispatch event) [event] where
  listeners := rfl
  delivered := by
    refine ⟨_, deliveries_dispatch hub event, ?_⟩
    intro snapshot
    -- A hub may have filed the listener more than once; then it hears the event as often.
    have among : listener ∈ hub.receivers event := List.mem_merge.mpr (.inr hears)
    obtain ⟨count, once⟩ := Nat.exists_eq_succ_of_ne_zero
      (Nat.ne_of_gt (List.count_pos_iff.mpr among))
    have nothing : hub.pending = [] := by simp [pending, direct]
    have still : (hub.dispatch event).pending = [] := nothing
    rw [heard_map, once, nothing, still, List.append_nil]
    exact snapshot.replay_replicate event count

theorem tells_publish (hears : hub.HearsAll listener) (event : Event) :
    Tells listener hub (hub.publish event) [event] := by
  have somebody : hub.isEmpty = false := by
    cases listeners : hub.listeners with
    | nil => simp [HearsAll, listeners] at hears
    | cons entry entries => simp [isEmpty, listeners]
  unfold publish
  rw [somebody]
  cases held : hub.queue with
  | none => exact tells_dispatch hears held event
  | some queue =>
      refine ⟨rfl, [], by simp, ?_⟩
      intro snapshot
      simp [heard, pending, held]

theorem tells_startQueue (hub : Hub) : Tells listener hub hub.startQueue [] := by
  unfold startQueue
  split
  · exact .refl hub
  · rename_i direct
    exact ⟨rfl, [], by simp, by simp [heard, pending, direct]⟩

/-- Events that are delivered one after the other are heard in their order. -/
theorem tells_foldl_dispatch (hears : hub.HearsAll listener) (direct : hub.queue = none)
    (events : List Event) : Tells listener hub (events.foldl dispatch hub) events := by
  induction events generalizing hub with
  | nil => exact .refl hub
  | cons event events induction =>
      have first := tells_dispatch hears direct event
      exact first.trans (induction (hears.later first) direct)

/-- A flush delivers what was held back. -/
theorem tells_flush (hears : hub.HearsAll listener) : Tells listener hub hub.flush [] := by
  unfold flush
  cases held : hub.queue with
  | none => exact .refl hub
  | some queue =>
      let released : Hub := { hub with queue := none }
      have stillHears : released.HearsAll listener := hears
      have told := tells_foldl_dispatch stillHears rfl queue.toList
      change Tells listener hub (queue.foldl dispatch released) []
      rw [← Array.foldl_toList]
      obtain ⟨deliveries, delivered, same⟩ := told.delivered
      refine ⟨told.listeners, deliveries, delivered, ?_⟩
      intro snapshot
      have before : hub.pending = released.pending ++ queue.toList := by
        simp [pending, held, released]
      rw [same, before, List.append_nil]

end Hub

end ClassroomCpu
