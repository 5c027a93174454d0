import ClassroomCpu.Event

/-!
# The event hub

A hub delivers events to listeners.  It files the listeners by topic, and
numbers them in the order in which they came, so that the listeners of one
event can be called in that order although those of the topic and those of
every event are filed apart.  While a hub holds events back it queues them; a
flush ends that and delivers what was queued.  The deliveries are recorded.
-/

namespace ClassroomCpu

/-- The topic under which a listener receives every event. -/
def everyTopic : String :=
  "*"

/-- What a listener gets when it is registered, and shows when it leaves. -/
structure Subscription where
  /-- The topic, in upper case. -/
  topic : String
  /-- The number of the listener. -/
  listener : Nat
  deriving DecidableEq, Repr

/-- An event that a listener received. -/
structure Delivery where
  listener : Nat
  event : Event
  deriving DecidableEq, Repr

/-- The listeners of a machine, and the events on their way to them. -/
structure Hub where
  /-- The numbers of the listeners of each topic, in ascending order; no list is empty. -/
  listeners : List (String × List Nat)
  /-- The number of the next listener. -/
  next : Nat
  /-- The events that are held back, if the hub holds back events. -/
  queue : Option (Array Event)
  /-- The deliveries so far. -/
  deliveries : Array Delivery
  deriving Repr

namespace Hub

/-- A hub without listeners. -/
def empty : Hub :=
  ⟨[], 0, none, #[]⟩

/-- Files a listener under a topic, behind those that are there. -/
def file (topic : String) (listener : Nat) :
    List (String × List Nat) → List (String × List Nat)
  | [] => [(topic, [listener])]
  | entry :: entries =>
      if entry.1 = topic then (topic, entry.2 ++ [listener]) :: entries
      else entry :: file topic listener entries

/-- Puts listeners in the place of those of a topic; without any the topic is taken away. -/
def refile (topic : String) (listeners : List Nat) :
    List (String × List Nat) → List (String × List Nat)
  | [] => []
  | entry :: entries =>
      if entry.1 = topic then
        if listeners.isEmpty then entries else (topic, listeners) :: entries
      else entry :: refile topic listeners entries

/-- Registers a listener for a topic, whatever the case of its letters. -/
def subscribe (hub : Hub) (topic : String) : Subscription × Hub :=
  let topic := Text.uppercase topic
  (⟨topic, hub.next⟩,
    { hub with listeners := file topic hub.next hub.listeners, next := hub.next + 1 })

/-- Removes a listener, and says whether it was there. -/
def unsubscribe (hub : Hub) (subscription : Subscription) : Bool × Hub :=
  match hub.listeners.lookup subscription.topic with
  | none => (false, hub)
  | some listeners =>
      let remaining := listeners.filter (· ≠ subscription.listener)
      (remaining.length ≠ listeners.length,
        { hub with listeners := refile subscription.topic remaining hub.listeners })

/-- Whether nobody listens. -/
def isEmpty (hub : Hub) : Bool :=
  hub.listeners.isEmpty

/-- The number of listeners. -/
def size (hub : Hub) : Nat :=
  hub.listeners.foldl (fun total entry => total + entry.2.length) 0

/-- Whether events are held back. -/
def isQueueing (hub : Hub) : Bool :=
  hub.queue.isSome

/-- The listeners that receive an event, in the order in which they were registered. -/
def receivers (hub : Hub) (event : Event) : List Nat :=
  List.merge ((hub.listeners.lookup event.topic).getD [])
    ((hub.listeners.lookup everyTopic).getD []) fun named every => named < every

/-- Delivers an event to the listeners that asked for it. -/
def dispatch (hub : Hub) (event : Event) : Hub :=
  { hub with
    deliveries := (hub.receivers event).foldl
      (fun deliveries listener => deliveries.push ⟨listener, event⟩) hub.deliveries }

/-- Delivers an event, or holds it back; if nobody listens the event is lost. -/
def publish (hub : Hub) (event : Event) : Hub :=
  if hub.isEmpty then hub
  else
    match hub.queue with
    | some queue => { hub with queue := some (queue.push event) }
    | none => hub.dispatch event

/-- Holds events back from now on. -/
def startQueue (hub : Hub) : Hub :=
  match hub.queue with
  | some _ => hub
  | none => { hub with queue := some #[] }

/-- Delivers the events that were held back, and holds no more back. -/
def flush (hub : Hub) : Hub :=
  match hub.queue with
  | some queue => queue.foldl dispatch { hub with queue := none }
  | none => hub

/-- The hub with an empty record of deliveries. -/
def forget (hub : Hub) : Hub :=
  { hub with deliveries := #[] }

/-- The number of listeners and of queued events, for people who look for defects. -/
def summary (hub : Hub) : String :=
  "EventHub \x7B listeners: " ++ Text.decimal hub.size ++ ", queued: "
    ++ (match hub.queue with
      | some queue => "Some(" ++ Text.decimal queue.size ++ ")"
      | none => "None")
    ++ " \x7D"

end Hub

end ClassroomCpu
