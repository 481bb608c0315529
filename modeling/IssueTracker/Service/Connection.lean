/-
  IssueTracker/Service/Connection.lean --- one client that follows the events.

  A connection has a subscriber in the hub.  If the client says what it saw last, the
  retained events after that are sent first; live events that were among them are left
  out.  Keepalives are sent between events when there is none for a while.
-/
import IssueTracker.Hub.Basic

set_option autoImplicit false

namespace IssueTracker

/-- A client that follows the events. -/
structure Connection where
  /-- The number of the subscriber in the hub. -/
  subscriber : Nat
  /-- Retained events that were not sent yet, the oldest first. -/
  replay : List Event
  /-- The sequence number up to which live events were replayed. -/
  replayedThrough : Nat
  deriving DecidableEq, Repr, Inhabited

namespace Connection

/-- The retained events to send first, and the sequence number that they go up to.  The number
is taken from the events that are retained, whether the filter passes them or not, and
never from what the client says. -/
def replayAfter (hub : Hub) (filter : Topic.Filter) : Option Nat → List Event × Nat
  | none => ([], 0)
  | some last =>
      let retained := hub.eventsSince last
      (retained.filter (filter.passes ·.topic), retained.getLast?.elim 0 (·.sequence))

/-- Opens a connection. -/
def «open» (filter : Topic.Filter) (lastSeen : Option Nat) (hub : Hub) : Connection × Hub :=
  let (subscriber, hub) := hub.subscribe filter
  let (replay, replayedThrough) := replayAfter hub filter lastSeen
  (⟨subscriber, replay, replayedThrough⟩, hub)

/-- Closes a connection. -/
def close (c : Connection) (hub : Hub) : Hub := hub.drop c.subscriber

/-- Takes events of a subscriber until one is past a sequence number, `n` at most. -/
def takePast (id mark : Nat) : Nat → Hub → Option Event × Hub
  | 0, hub => (none, hub)
  | n + 1, hub =>
      match hub.receive id with
      | (none, hub) => (none, hub)
      | (some e, hub) => if e.sequence ≤ mark then takePast id mark n hub else (some e, hub)

/-- Takes the next event, if there is one. -/
def take (c : Connection) (hub : Hub) : Option Event × Connection × Hub :=
  match c.replay with
  | e :: rest => (some e, { c with replay := rest }, hub)
  | [] =>
      let (e, hub) := takePast c.subscriber c.replayedThrough (hub.waiting c.subscriber) hub
      (e, c, hub)

/-- Takes up to so many events. -/
def takeUpTo : Nat → Connection → Hub → List Event × Connection × Hub
  | 0, c, hub => ([], c, hub)
  | n + 1, c, hub =>
      match c.take hub with
      | (none, c, hub) => ([], c, hub)
      | (some e, c, hub) =>
          let (es, c, hub) := takeUpTo n c hub
          (e :: es, c, hub)

/-- Takes all events that there are now. -/
def takeAll (c : Connection) (hub : Hub) : List Event × Connection × Hub :=
  takeUpTo (c.replay.length + hub.waiting c.subscriber) c hub

/-- The keepalive, once nothing is left to replay. -/
def keepalive? (c : Connection) : Option Frame :=
  if c.replay.isEmpty then some .keepalive else none

end Connection

/-! ## Timers -/

/-- A timer for keepalives; times are milliseconds. -/
structure Timer where
  period : Nat
  /-- The time at which the next keepalive is due. -/
  deadline : Nat
  deriving DecidableEq, Repr, Inhabited

namespace Timer

/-- A timer that starts now. -/
def start (period now : Nat) : Timer := ⟨period, now + period⟩

/-- Is a keepalive due? -/
def isDue (now : Nat) (t : Timer) : Bool := t.deadline ≤ now

/-- By so many milliseconds a keepalive may be late and still count as sent on time. -/
def tolerance : Nat := 5

/-- The timer after a keepalive.  After one that was sent on time the next is due one period after
its deadline, and after a late one, one period from now: what was missed is not made up. -/
def fired (now : Nat) (t : Timer) : Timer :=
  { t with
    deadline :=
      if t.deadline + tolerance < now then now + t.period else t.deadline + t.period }

end Timer

end IssueTracker
