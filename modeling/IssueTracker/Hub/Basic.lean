/-
  IssueTracker/Hub/Basic.lean --- the hub that hands events to subscribers.

  Subscribers have numbers that are never given again, a filter, and a queue of
  bounded length.  A broadcast gives the event the next sequence number, records it in
  the history, and puts it into the queue of each registered subscriber whose filter
  passes its topic and whose queue has room.  Nothing waits for a slow subscriber.

  A subscriber that has unsubscribed may still take what is in its queue, until its
  handle is dropped.
-/
import IssueTracker.Hub.History
import IssueTracker.Topic.Filter

set_option autoImplicit false

namespace IssueTracker

namespace Hub

/-- How much a hub keeps. -/
structure Config where
  /-- Events that the history has room for. -/
  ringCapacity : Nat := 1000
  /-- Events that the queue of one subscriber has room for. -/
  subscriberCapacity : Nat := 64
  deriving DecidableEq, Repr, Inhabited

/-- One subscriber whose handle was not dropped. -/
structure Subscription where
  id : Nat
  filter : Topic.Filter
  /-- Is it still offered events? -/
  registered : Bool
  /-- Events that it did not take yet, the oldest first. -/
  queue : List Event
  deriving DecidableEq, Repr, Inhabited

end Hub

/-- The hub. -/
structure Hub where
  config : Hub.Config
  /-- The latest sequence number; zero before the first event. -/
  sequence : Nat
  history : History
  /-- How many subscribers there were. -/
  subscribed : Nat
  /-- The subscribers with a handle, in the order of their numbers. -/
  subscriptions : List Hub.Subscription
  deriving Inhabited

namespace Hub

/-- A hub without events and subscribers. -/
def ofConfig (config : Config) : Hub :=
  { config, sequence := 0, history := .ofCapacity config.ringCapacity, subscribed := 0,
    subscriptions := [] }

/-- The events that a queue has room for; one at least. -/
def Config.queueCapacity (c : Config) : Nat := max c.subscriberCapacity 1

/-! ## Subscribers -/

/-- Registers a subscriber and gives its number. -/
def subscribe (filter : Topic.Filter) (h : Hub) : Nat × Hub :=
  let id := h.subscribed + 1
  (id, { h with
    subscribed := id
    subscriptions := h.subscriptions ++ [⟨id, filter, true, []⟩] })

/-- The subscriber, no longer offered events. -/
def Subscription.leave (s : Subscription) : Subscription := { s with registered := false }

/-- Offers no more events to a subscriber; its handle stays. -/
def unsubscribe (id : Nat) (h : Hub) : Hub :=
  { h with
    subscriptions := h.subscriptions.map fun s => if s.id = id then s.leave else s }

/-- Removes a subscriber with its handle and queue. -/
def drop (id : Nat) (h : Hub) : Hub :=
  { h with subscriptions := h.subscriptions.filter (·.id != id) }

/-- The subscribers that are offered events. -/
def registered (h : Hub) : List Subscription := h.subscriptions.filter (·.registered)

/-- How many subscribers are offered events. -/
def subscriberCount (h : Hub) : Nat := h.registered.length

/-- The subscriber of a number, unless its handle was dropped. -/
def subscription? (id : Nat) (h : Hub) : Option Subscription :=
  h.subscriptions.find? (·.id == id)

/-! ## Events -/

/-- Puts an event into the queue, if the subscriber is to have it and there is room. -/
def Subscription.offer (capacity : Nat) (e : Event) (s : Subscription) : Subscription :=
  if s.registered && s.filter.passes e.topic && s.queue.length < capacity then
    { s with queue := s.queue ++ [e] }
  else s

/-- Numbers an event, records it and offers it to the subscribers; gives its number. -/
def broadcast (topic data : String) (h : Hub) : Nat × Hub :=
  let e : Event := ⟨h.sequence + 1, topic, data⟩
  (e.sequence, { h with
    sequence := e.sequence
    history := h.history.append e
    subscriptions := h.subscriptions.map (·.offer h.config.queueCapacity e) })

/-- The subscriber without the oldest event of its queue. -/
def Subscription.pop (s : Subscription) : Subscription := { s with queue := s.queue.tail }

/-- Takes the oldest event out of the queue of a subscriber. -/
def receive (id : Nat) (h : Hub) : Option Event × Hub :=
  match h.subscription? id with
  | none => (none, h)
  | some s =>
      (s.queue.head?, { h with
        subscriptions := h.subscriptions.map fun t => if t.id = id then t.pop else t })

/-- Takes up to so many events out of the queue of a subscriber. -/
def receiveUpTo (id : Nat) : Nat → Hub → List Event × Hub
  | 0, h => ([], h)
  | n + 1, h =>
      match h.receive id with
      | (none, h) => ([], h)
      | (some e, h) =>
          let (es, h) := receiveUpTo id n h
          (e :: es, h)

/-- How many events wait in the queue of a subscriber. -/
def waiting (id : Nat) (h : Hub) : Nat :=
  match h.subscription? id with
  | none => 0
  | some s => s.queue.length

/-- The retained events after a sequence number, the oldest first. -/
def eventsSince (last : Nat) (h : Hub) : List Event := h.history.since last

/-! ## Statistics -/

/-- The state of the hub as JSON; the subscribers stand in the order of their numbers. -/
def statistics (h : Hub) : Json :=
  .object
    [("last_sequence", .int h.sequence),
     ("retained", .int h.history.size),
     ("ring_capacity", .int h.history.capacity),
     ("subscriber_count", .int h.subscriberCount),
     ("subscribers", .list (h.registered.map fun s =>
       .object [("id", .int s.id), ("topics", s.filter.toJson)]))]

end Hub

end IssueTracker
