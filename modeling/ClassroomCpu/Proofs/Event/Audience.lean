import ClassroomCpu.Proofs.Event.Filing
import ClassroomCpu.Proofs.Event.Publication

/-!
# Who hears an event

However listeners come and leave, a hub files each one under one topic and
once.  So a listener for every event hears each event that is told exactly once.
-/

namespace ClassroomCpu.Hub

variable {hub : Hub} {listener : Nat}

/-! ## The hubs that come about -/

/-- The hub has come about from an empty one by what hubs are asked for. -/
inductive Reached : Hub → Prop where
  | empty : Reached .empty
  | subscribe {hub : Hub} (topic : String) : Reached hub → Reached (hub.subscribe topic).2
  | unsubscribe {hub : Hub} (subscription : Subscription) :
      Reached hub → Reached (hub.unsubscribe subscription).2
  | publish {hub : Hub} (event : Event) : Reached hub → Reached (hub.publish event)
  | startQueue {hub : Hub} : Reached hub → Reached hub.startQueue
  | flush {hub : Hub} : Reached hub → Reached hub.flush
  | forget {hub : Hub} : Reached hub → Reached hub.forget

/-- The listeners that are filed under a topic. -/
def filed (hub : Hub) (topic : String) : List Nat :=
  (hub.listeners.lookup topic).getD []

/-- Every listener is filed once. -/
structure Orderly (hub : Hub) : Prop where
  /-- Each topic has one entry. -/
  topics : (hub.listeners.map Prod.fst).Nodup
  /-- Listeners have numbers that were given out. -/
  numbered : ∀ topic, ∀ listener ∈ hub.filed topic, listener < hub.next
  /-- A topic has each of its listeners once. -/
  once : ∀ topic, (hub.filed topic).Nodup
  /-- A listener has one topic. -/
  apart : ∀ topic other listener, listener ∈ hub.filed topic → listener ∈ hub.filed other →
    topic = other

namespace Orderly

theorem empty : Orderly .empty where
  topics := List.nodup_nil
  numbered _ _ member := absurd member List.not_mem_nil
  once _ := List.nodup_nil
  apart _ _ _ member := absurd member List.not_mem_nil

/-- What neither comes nor leaves keeps its place. -/
theorem of_same {after : Hub} (orderly : hub.Orderly) (listeners : after.listeners = hub.listeners)
    (next : after.next = hub.next) : after.Orderly := by
  have filed : after.filed = hub.filed :=
    funext fun topic => by rw [Hub.filed, Hub.filed, listeners]
  constructor
  · rw [listeners]
    exact orderly.topics
  · rw [filed, next]
    exact orderly.numbered
  · rw [filed]
    exact orderly.once
  · rw [filed]
    exact orderly.apart

theorem subscribe (orderly : hub.Orderly) (topic : String) :
    (hub.subscribe topic).2.Orderly := by
  have filed : ∀ other, (hub.subscribe topic).2.filed other =
      hub.filed other ++ if Text.uppercase topic = other then [hub.next] else [] :=
    lookup_file (Text.uppercase topic) hub.next hub.listeners
  have isNew : ∀ other, hub.next ∉ hub.filed other :=
    fun other member => Nat.lt_irrefl _ (orderly.numbered other _ member)
  have cases : ∀ other listener, listener ∈ (hub.subscribe topic).2.filed other →
      listener ∈ hub.filed other ∨ (listener = hub.next ∧ Text.uppercase topic = other) := by
    intro other listener member
    rw [filed] at member
    rcases List.mem_append.mp member with before | new
    · exact .inl before
    · split at new
      · rename_i same
        exact .inr ⟨List.mem_singleton.mp new, same⟩
      · exact absurd new List.not_mem_nil
  constructor
  case topics =>
    change ((file (Text.uppercase topic) hub.next hub.listeners).map Prod.fst).Nodup
    rw [keys_file]
    split
    · exact orderly.topics
    · rename_i nowhere
      rw [List.nodup_append_comm]
      exact List.nodup_cons.mpr ⟨nowhere, orderly.topics⟩
  case numbered =>
    intro other listener member
    change listener < hub.next + 1
    rcases cases other listener member with before | ⟨rfl, _⟩
    · exact Nat.lt_succ_of_lt (orderly.numbered other listener before)
    · exact Nat.lt_succ_self _
  case once =>
    intro other
    rw [filed]
    split
    · rw [List.nodup_append_comm]
      exact List.nodup_cons.mpr ⟨isNew other, orderly.once other⟩
    · rw [List.append_nil]
      exact orderly.once other
  case apart =>
    intro first second listener here there
    rcases cases first listener here with before | ⟨rfl, same⟩
    · rcases cases second listener there with beforeToo | ⟨rfl, _⟩
      · exact orderly.apart first second listener before beforeToo
      · exact absurd before (isNew first)
    · rcases cases second hub.next there with before | ⟨_, sameToo⟩
      · exact absurd before (isNew second)
      · exact same.symm.trans sameToo

/-- A subscription that is handed back takes away one listener of its topic at most. -/
theorem unsubscribe (orderly : hub.Orderly) (subscription : Subscription) :
    (hub.unsubscribe subscription).2.Orderly := by
  unfold Hub.unsubscribe
  split
  · exact orderly
  · rename_i listeners found
    let remaining := listeners.filter (· ≠ subscription.listener)
    let after : Hub :=
      { hub with listeners := refile subscription.topic remaining hub.listeners }
    change after.Orderly
    have topicFiled : subscription.topic ∈ hub.listeners.map Prod.fst := by
      by_contra nowhere
      rw [lookup_eq_none_of_notMem nowhere] at found
      contradiction
    have before : hub.filed subscription.topic = listeners := by rw [filed, found]; rfl
    have filed : ∀ other, after.filed other =
        if subscription.topic = other then remaining else hub.filed other :=
      lookup_refile remaining orderly.topics topicFiled
    have sublist : ∀ other, (after.filed other).Sublist (hub.filed other) := by
      intro other
      rw [filed]
      split
      · rename_i same
        rw [← same, before]
        exact List.filter_sublist
      · exact .refl _
    constructor
    · exact orderly.topics.sublist (sublist_refile _ _)
    · exact fun other listener member =>
        orderly.numbered other listener ((sublist other).subset member)
    · exact fun other => (orderly.once other).sublist (sublist other)
    · exact fun first second listener here there => orderly.apart first second listener
        ((sublist first).subset here) ((sublist second).subset there)

end Orderly

theorem same_dispatch_foldl (hub : Hub) (events : List Event) :
    (events.foldl dispatch hub).listeners = hub.listeners ∧
      (events.foldl dispatch hub).next = hub.next := by
  induction events generalizing hub with
  | nil => exact ⟨rfl, rfl⟩
  | cons event events induction => exact induction (hub.dispatch event)

theorem Reached.orderly (reached : hub.Reached) : hub.Orderly := by
  induction reached with
  | empty => exact .empty
  | subscribe topic _ orderly => exact orderly.subscribe topic
  | unsubscribe subscription _ orderly => exact orderly.unsubscribe subscription
  | publish event _ orderly =>
      unfold Hub.publish
      split
      · exact orderly
      · split <;> exact orderly.of_same rfl rfl
  | startQueue _ orderly =>
      unfold Hub.startQueue
      split
      · exact orderly
      · exact orderly.of_same rfl rfl
  | @flush hub _ orderly =>
      unfold Hub.flush
      split
      · rename_i queue _
        rw [← Array.foldl_toList]
        obtain ⟨listeners, next⟩ := same_dispatch_foldl { hub with queue := none } queue.toList
        exact orderly.of_same listeners next
      · exact orderly
  | forget _ orderly => exact orderly.of_same rfl rfl

/-! ## What one listener hears -/

theorem count_receivers (orderly : hub.Orderly) (hears : hub.HearsAll listener) (event : Event) :
    (hub.receivers event).count listener = 1 := by
  have every : listener ∈ hub.filed everyTopic := hears
  have elsewhere : listener ∉ hub.filed event.topic := fun member =>
    topic_ne_everyTopic event (orderly.apart event.topic everyTopic listener member every)
  calc
    (hub.receivers event).count listener =
        (hub.filed event.topic ++ hub.filed everyTopic).count listener :=
      (List.merge_perm_append _).count_eq listener
    _ = 1 := by
      rw [List.count_append, List.count_eq_zero_of_not_mem elsewhere,
        List.count_eq_one_of_mem (orderly.once everyTopic) every]

/-- A listener for every event hears each event that is told once. -/
theorem heard_told (orderly : hub.Orderly) (hears : hub.HearsAll listener) (events : List Event) :
    heard listener (hub.told events) = events := by
  induction events with
  | nil => rfl
  | cons event events induction =>
      have split : hub.told (event :: events) =
          (hub.receivers event).map (fun listener => ⟨listener, event⟩) ++ hub.told events := rfl
      have first : heard listener ((hub.receivers event).map fun listener => ⟨listener, event⟩) =
          [event] := by
        rw [heard_map, count_receivers orderly hears]
        rfl
      have parts : ∀ some others : List Delivery,
          heard listener (some ++ others) = heard listener some ++ heard listener others := by
        intro some others
        simp [heard]
      rw [split, parts, first, induction]
      rfl

/-- What a listener for every event has heard once events are told. -/
theorem HasTold.heardSince {after : Hub} {events : List Event} (told : HasTold hub after events)
    (reached : hub.Reached) (hears : hub.HearsAll listener) (direct : hub.isQueueing = false) :
    after.heardSince hub listener = events := by
  have noQueue : hub.queue = none := by simpa [isQueueing] using direct
  have nothing : hub.pending = [] := by simp [pending, noQueue]
  rw [Hub.heardSince, told.deliveries, ← Array.length_toList, List.drop_left, nothing,
    List.nil_append, heard_told reached.orderly hears]

end ClassroomCpu.Hub
