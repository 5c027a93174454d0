import ClassroomCpu.Proofs.Event.Filing

/-!
# A hub as a list of listeners

To its clients a hub is a list of the live listeners in the order of their
subscriptions, with a queue while events are held back.  The tables by topic,
and the merging of two of them by number, cannot be told from that list by any
sequence of requests.
-/

namespace ClassroomCpu

/-! ## What clients ask -/

/--
What a client can ask of a hub.  A subscription is handed back by its place among those that
the client received, as often as the client likes.
-/
inductive Request where
  | subscribe (topic : String)
  | unsubscribe (place : Nat)
  | publish (event : Event)
  | startQueue
  | flush
  deriving DecidableEq, Repr

/-- What a client is answered. -/
inductive Reply where
  | subscribed (subscription : Subscription)
  | unsubscribed (removed : Bool)
  | done
  deriving DecidableEq, Repr

/-- The services of a hub whose state is of some type. -/
structure HubServices (State : Type) where
  subscribe : State → String → Subscription × State
  unsubscribe : State → Subscription → Bool × State
  publish : State → Event → State
  startQueue : State → State
  flush : State → State

/-- A hub in use: its state, the subscriptions that it gave out and its answers, in order. -/
structure Conversation (State : Type) where
  state : State
  subscriptions : List Subscription
  replies : List Reply

namespace HubServices

variable {State : Type} (services : HubServices State)

/-- Answers a request; without a subscription to hand back nothing is asked of the hub. -/
def answer (conversation : Conversation State) : Request → Conversation State
  | .subscribe topic =>
      let (subscription, state) := services.subscribe conversation.state topic
      ⟨state, conversation.subscriptions ++ [subscription],
        conversation.replies ++ [.subscribed subscription]⟩
  | .unsubscribe place =>
      match conversation.subscriptions[place]? with
      | none => { conversation with replies := conversation.replies ++ [.done] }
      | some subscription =>
          let (removed, state) := services.unsubscribe conversation.state subscription
          { conversation with
            state := state, replies := conversation.replies ++ [.unsubscribed removed] }
  | .publish event =>
      { conversation with
        state := services.publish conversation.state event
        replies := conversation.replies ++ [.done] }
  | .startQueue =>
      { conversation with
        state := services.startQueue conversation.state
        replies := conversation.replies ++ [.done] }
  | .flush =>
      { conversation with
        state := services.flush conversation.state
        replies := conversation.replies ++ [.done] }

/-- Answers requests one after the other, from a fresh state on. -/
def converse (fresh : State) (requests : List Request) : Conversation State :=
  requests.foldl services.answer ⟨fresh, [], []⟩

end HubServices

/-- The services of a hub. -/
def Hub.services : HubServices Hub where
  subscribe := Hub.subscribe
  unsubscribe := Hub.unsubscribe
  publish := Hub.publish
  startQueue := Hub.startQueue
  flush := Hub.flush

/-! ## The list of listeners -/

/-- The listeners in the order of their subscriptions, with what is held back and was called. -/
structure Roster where
  /-- The live listeners, each with its topic in upper case. -/
  live : List Subscription
  /-- The number of the next listener. -/
  next : Nat
  /-- The events that are held back, if events are held back. -/
  queue : Option (List Event)
  /-- The calls of listeners so far. -/
  calls : List Delivery
  deriving Repr

namespace Roster

/-- Nobody is live. -/
def empty : Roster :=
  ⟨[], 0, none, []⟩

/-- The subscription asks for the event, by its topic or for every event. -/
def Wants (subscription : Subscription) (event : Event) : Prop :=
  subscription.topic = everyTopic ∨ subscription.topic = event.topic

instance (subscription : Subscription) (event : Event) : Decidable (Wants subscription event) :=
  inferInstanceAs (Decidable (_ ∨ _))

/-- A new listener is live behind all others. -/
def subscribe (roster : Roster) (topic : String) : Subscription × Roster :=
  let subscription := ⟨Text.uppercase topic, roster.next⟩
  (subscription,
    { roster with live := roster.live ++ [subscription], next := roster.next + 1 })

/-- The listener of that number is not live any more; the answer is whether it was. -/
def unsubscribe (roster : Roster) (subscription : Subscription) : Bool × Roster :=
  (roster.live.any fun other => other.listener = subscription.listener,
    { roster with
      live := roster.live.filter fun other => other.listener ≠ subscription.listener })

/-- Calls the live listeners that want an event, each once and in their order. -/
def call (roster : Roster) (event : Event) : Roster :=
  { roster with
    calls := roster.calls ++
      (roster.live.filter fun subscription => Wants subscription event).map
        fun subscription => ⟨subscription.listener, event⟩ }

/-- An event is lost if nobody is live, held back behind the others, or told at once. -/
def publish (roster : Roster) (event : Event) : Roster :=
  if roster.live = [] then roster
  else
    match roster.queue with
    | some queue => { roster with queue := some (queue ++ [event]) }
    | none => roster.call event

/-- Events are held back from now on. -/
def startQueue (roster : Roster) : Roster :=
  { roster with queue := some (roster.queue.getD []) }

/-- The events that are held back are told in their order, and none is held back any more. -/
def flush (roster : Roster) : Roster :=
  (roster.queue.getD []).foldl call { roster with queue := none }

/-- The services of a list of listeners. -/
def services : HubServices Roster where
  subscribe := subscribe
  unsubscribe := unsubscribe
  publish := publish
  startQueue := startQueue
  flush := flush

end Roster

/-! ## A hub and its list of listeners -/

namespace Roster

/-- The list of listeners describes the hub. -/
structure Describes (roster : Roster) (hub : Hub) : Prop where
  filed : Hub.Files hub.listeners roster.live
  ascending : roster.live.Pairwise fun first second => first.listener < second.listener
  earlier : ∀ subscription ∈ roster.live, subscription.listener < roster.next
  next : hub.next = roster.next
  queue : hub.queue.map Array.toList = roster.queue
  calls : hub.deliveries.toList = roster.calls

/-- The list knows the subscription: it is of an earlier number, which is its own if it is live. -/
structure Knows (roster : Roster) (subscription : Subscription) : Prop where
  earlier : subscription.listener < roster.next
  alone : ∀ other ∈ roster.live, other.listener = subscription.listener → other = subscription

/-- The number of a known subscription is under its topic exactly if it is live. -/
theorem Knows.mem_under_iff {roster : Roster} {subscription : Subscription}
    (known : roster.Knows subscription) :
    subscription.listener ∈ Hub.under roster.live subscription.topic ↔
      (roster.unsubscribe subscription).1 = true := by
  simp only [Hub.under, List.mem_map, List.mem_filter, decide_eq_true_eq, Roster.unsubscribe,
    List.any_eq_true]
  constructor
  · rintro ⟨other, ⟨member, _⟩, number⟩
    exact ⟨other, member, number⟩
  · rintro ⟨other, member, number⟩
    have same := known.alone other member number
    exact ⟨other, ⟨member, congrArg Subscription.topic same⟩, number⟩

namespace Describes

variable {roster : Roster} {hub : Hub}

theorem empty : Roster.empty.Describes Hub.empty where
  filed := .nil
  ascending := .nil
  earlier := by simp [Roster.empty]
  next := rfl
  queue := rfl
  calls := rfl

theorem isEmpty_eq (describes : roster.Describes hub) : hub.isEmpty = roster.live.isEmpty :=
  describes.filed.isEmpty_eq

theorem isQueueing_eq (describes : roster.Describes hub) :
    hub.isQueueing = roster.queue.isSome := by
  rw [← describes.queue, Option.isSome_map]
  rfl

theorem subscribe (describes : roster.Describes hub) (topic : String) :
    (hub.subscribe topic).1 = (roster.subscribe topic).1 ∧
      (roster.subscribe topic).2.Describes (hub.subscribe topic).2 := by
  have number := describes.next
  refine ⟨by simp [Hub.subscribe, Roster.subscribe, number], ?_⟩
  constructor
  case filed =>
    simp only [Hub.subscribe, Roster.subscribe, number]
    exact describes.filed.file ⟨Text.uppercase topic, roster.next⟩
  case ascending =>
    refine List.pairwise_append.mpr ⟨describes.ascending, List.pairwise_singleton _ _, ?_⟩
    intro first among second member
    rw [List.mem_singleton.mp member]
    exact describes.earlier first among
  case earlier =>
    intro subscription member
    rcases List.mem_append.mp member with among | new
    · exact Nat.lt_succ_of_lt (describes.earlier subscription among)
    · rw [List.mem_singleton.mp new]
      exact Nat.lt_succ_self _
  case next => simp [Hub.subscribe, Roster.subscribe, number]
  case queue => exact describes.queue
  case calls => exact describes.calls

theorem unsubscribe (describes : roster.Describes hub) {subscription : Subscription}
    (known : roster.Knows subscription) :
    (hub.unsubscribe subscription).1 = (roster.unsubscribe subscription).1 ∧
      (roster.unsubscribe subscription).2.Describes (hub.unsubscribe subscription).2 := by
  have live := known.mem_under_iff
  have entry := describes.filed.lookup subscription.topic
  have ascending : (roster.unsubscribe subscription).2.live.Pairwise
      fun first second => first.listener < second.listener :=
    describes.ascending.sublist List.filter_sublist
  have earlier : ∀ other ∈ (roster.unsubscribe subscription).2.live,
      other.listener < roster.next := fun other member =>
    describes.earlier other (List.mem_filter.mp member).1
  rw [Hub.unsubscribe]
  cases found : hub.listeners.lookup subscription.topic with
  | none =>
      rw [found, Option.getD_none] at entry
      rw [← entry] at live
      have gone : (roster.unsubscribe subscription).1 = false := by simpa using live
      have kept : (roster.unsubscribe subscription).2.live = roster.live := by
        simpa [Roster.unsubscribe] using gone
      exact ⟨gone.symm, { describes with
        filed := kept ▸ describes.filed, ascending := ascending, earlier := earlier }⟩
  | some listeners =>
      rw [found, Option.getD_some] at entry
      rw [← entry] at live
      constructor
      · rw [Bool.eq_iff_iff, ← live, decide_eq_true_iff, Ne, List.length_filter_eq_length_iff]
        simp
      · exact { describes with
          filed := describes.filed.refile subscription found known.alone
          ascending := ascending
          earlier := earlier }

/-- An event reaches the live listeners that want it. -/
theorem receivers_eq (describes : roster.Describes hub) (event : Event) :
    hub.receivers event =
      (roster.live.filter fun subscription => Wants subscription event).map
        Subscription.listener := by
  rw [Hub.receivers, describes.filed.lookup, describes.filed.lookup]
  refine (Hub.merge_selections _ _ roster.live ?_ describes.ascending).trans ?_
  · intro subscription named
    have topic : subscription.topic = event.topic := by simpa using named
    simpa [topic] using Hub.topic_ne_everyTopic event
  · congr 1
    apply List.filter_congr
    intro subscription _
    rw [← Bool.decide_or]
    rfl

theorem dispatch (describes : roster.Describes hub) (event : Event) :
    (roster.call event).Describes (hub.dispatch event) where
  filed := describes.filed
  ascending := describes.ascending
  earlier := describes.earlier
  next := describes.next
  queue := describes.queue
  calls := by
    rw [Hub.deliveries_dispatch, describes.calls, describes.receivers_eq, List.map_map]
    rfl

theorem foldl_dispatch (describes : roster.Describes hub) (events : List Event) :
    (events.foldl call roster).Describes (events.foldl Hub.dispatch hub) := by
  induction events generalizing roster hub with
  | nil => exact describes
  | cons event events induction => exact induction (describes.dispatch event)

theorem publish (describes : roster.Describes hub) (event : Event) :
    (roster.publish event).Describes (hub.publish event) := by
  have same := describes.queue
  rw [Hub.publish, describes.isEmpty_eq, Roster.publish]
  by_cases nobody : roster.live = []
  · simpa [nobody] using describes
  · rw [if_neg nobody, if_neg (by simpa using nobody)]
    cases held : hub.queue with
    | none =>
        rw [held] at same
        simpa [← same] using describes.dispatch event
    | some queue =>
        rw [held] at same
        rw [← same]
        exact { describes with queue := by simp }

theorem startQueue (describes : roster.Describes hub) :
    roster.startQueue.Describes hub.startQueue := by
  have same := describes.queue
  rw [Hub.startQueue, Roster.startQueue]
  cases held : hub.queue with
  | none =>
      rw [held] at same
      exact { describes with queue := by simp [← same] }
  | some queue =>
      rw [held] at same
      exact { describes with queue := by simp [← same, held] }

theorem flush (describes : roster.Describes hub) : roster.flush.Describes hub.flush := by
  have same := describes.queue
  have released : Describes { roster with queue := none } { hub with queue := none } :=
    { describes with queue := rfl }
  rw [Hub.flush, Roster.flush]
  cases held : hub.queue with
  | none =>
      rw [held] at same
      rw [← same]
      exact { describes with queue := by simp [held] }
  | some queue =>
      rw [held] at same
      have told := released.foldl_dispatch queue.toList
      rw [Array.foldl_toList] at told
      simpa [← same] using told

end Describes

end Roster

/-! ## Conversations -/

namespace Roster

theorem live_foldl_call (roster : Roster) (events : List Event) :
    (events.foldl call roster).live = roster.live ∧
      (events.foldl call roster).next = roster.next := by
  induction events generalizing roster with
  | nil => exact ⟨rfl, rfl⟩
  | cons event events induction => exact induction (roster.call event)

theorem live_publish (roster : Roster) (event : Event) :
    (roster.publish event).live = roster.live ∧ (roster.publish event).next = roster.next := by
  rw [publish]
  split
  · exact ⟨rfl, rfl⟩
  · split <;> exact ⟨rfl, rfl⟩

namespace Knows

variable {roster after : Roster} {subscription : Subscription}

/-- A subscription is still known when no listener has come. -/
theorem later (known : roster.Knows subscription)
    (live : ∀ other ∈ after.live, other ∈ roster.live) (next : after.next = roster.next) :
    after.Knows subscription where
  earlier := next ▸ known.earlier
  alone other member := known.alone other (live other member)

/-- A new listener has a number that no earlier subscription has. -/
theorem subscribe (known : roster.Knows subscription) (topic : String) :
    (roster.subscribe topic).2.Knows subscription where
  earlier := Nat.lt_succ_of_lt known.earlier
  alone other member same := by
    rcases List.mem_append.mp member with among | new
    · exact known.alone other among same
    · rw [List.mem_singleton.mp new] at same
      exact absurd same (Nat.ne_of_gt known.earlier)

/-- A subscription is known from the start. -/
theorem new {hub : Hub} (describes : roster.Describes hub) (topic : String) :
    (roster.subscribe topic).2.Knows (roster.subscribe topic).1 where
  earlier := Nat.lt_succ_self _
  alone other member same := by
    rcases List.mem_append.mp member with among | new
    · exact absurd same (Nat.ne_of_lt (describes.earlier other among))
    · exact List.mem_singleton.mp new

end Knows

/-- Two conversations go alike: the list describes the hub and knows what the client holds. -/
structure Follows (listed : Conversation Roster) (actual : Conversation Hub) : Prop where
  describes : listed.state.Describes actual.state
  subscriptions : actual.subscriptions = listed.subscriptions
  replies : actual.replies = listed.replies
  known : ∀ subscription ∈ listed.subscriptions, listed.state.Knows subscription

/-- Nothing a client holds is lost when no listener comes or leaves. -/
theorem Follows.done {listed : Conversation Roster} {actual : Conversation Hub}
    (follows : Follows listed actual) {roster : Roster} {hub : Hub}
    (describes : roster.Describes hub)
    (same : roster.live = listed.state.live ∧ roster.next = listed.state.next) :
    Follows { listed with state := roster, replies := listed.replies ++ [.done] }
      { actual with state := hub, replies := actual.replies ++ [.done] } where
  describes := describes
  subscriptions := follows.subscriptions
  replies := by rw [follows.replies]
  known subscription member :=
    (follows.known subscription member).later (fun _ among => same.1 ▸ among) same.2

/-- Every request keeps two conversations alike. -/
theorem follows_answer {listed : Conversation Roster} {actual : Conversation Hub}
    (follows : Follows listed actual) (request : Request) :
    Follows (services.answer listed request) (Hub.services.answer actual request) := by
  have describes := follows.describes
  cases request with
  | subscribe topic =>
      obtain ⟨same, after⟩ := describes.subscribe topic
      refine ⟨after, ?_, ?_, ?_⟩
      · exact congrArg₂ (fun held new => held ++ [new]) follows.subscriptions same
      · exact congrArg₂ (fun said new => said ++ [Reply.subscribed new]) follows.replies same
      · intro subscription member
        rcases List.mem_append.mp member with among | new
        · exact (follows.known subscription among).subscribe topic
        · rw [List.mem_singleton.mp new]
          exact .new describes topic
  | unsubscribe place =>
      simp only [HubServices.answer, follows.subscriptions]
      cases held : listed.subscriptions[place]? with
      | none =>
          exact ⟨describes, rfl, by rw [follows.replies], follows.known⟩
      | some subscription =>
          have known := follows.known subscription (List.mem_of_getElem? held)
          obtain ⟨same, after⟩ := describes.unsubscribe known
          refine ⟨after, rfl, ?_, ?_⟩
          · exact congrArg₂ (fun said new => said ++ [Reply.unsubscribed new])
              follows.replies same
          · intro other member
            exact (follows.known other member).later
              (fun _ among => (List.mem_filter.mp among).1) rfl
  | publish event =>
      exact follows.done (describes.publish event) (live_publish listed.state event)
  | startQueue => exact follows.done describes.startQueue ⟨rfl, rfl⟩
  | flush =>
      exact follows.done describes.flush
        (live_foldl_call { listed.state with queue := none } (listed.state.queue.getD []))

theorem follows_foldl_answer {listed : Conversation Roster} {actual : Conversation Hub}
    (follows : Follows listed actual) (requests : List Request) :
    Follows (requests.foldl services.answer listed)
      (requests.foldl Hub.services.answer actual) := by
  induction requests generalizing listed actual with
  | nil => exact follows
  | cons request requests induction => exact induction (follows_answer follows request)

end Roster

/--
To its clients a new hub is a list of live listeners.  After any requests it has given the same
answers and called the same listeners with the same events in the same order, it has no listener
exactly if the list is empty, and it holds events back exactly if the list does.
-/
theorem Hub.converse_eq_roster (requests : List Request) :
    (Hub.services.converse Hub.empty requests).replies =
        (Roster.services.converse Roster.empty requests).replies ∧
      (Hub.services.converse Hub.empty requests).state.deliveries.toList =
        (Roster.services.converse Roster.empty requests).state.calls ∧
      (Hub.services.converse Hub.empty requests).state.isEmpty =
        (Roster.services.converse Roster.empty requests).state.live.isEmpty ∧
      (Hub.services.converse Hub.empty requests).state.isQueueing =
        (Roster.services.converse Roster.empty requests).state.queue.isSome := by
  have fresh : Roster.Follows ⟨Roster.empty, [], []⟩ ⟨Hub.empty, [], []⟩ :=
    ⟨.empty, rfl, rfl, by simp⟩
  have follows := Roster.follows_foldl_answer fresh requests
  exact ⟨follows.replies, follows.describes.calls, follows.describes.isEmpty_eq,
    follows.describes.isQueueing_eq⟩

end ClassroomCpu
