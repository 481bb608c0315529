/-
  IssueTracker/Bus/Basic.lean --- the message bus as a sink.

  The bus passes events on to other programs.  It logs what it was offered; a bus that
  records shows the log to whoever asks.
-/
import IssueTracker.Dispatch.Sink

set_option autoImplicit false

namespace IssueTracker

namespace Bus

/-- An event, as it is offered to the bus. -/
structure Message where
  topic : String
  payload : String
  deriving DecidableEq, Repr, Inhabited

end Bus

/-- A message bus. -/
structure Bus where
  availability : Availability := .accepting
  /-- Does it show what it took? -/
  records : Bool := false
  /-- What it was offered since somebody asked last, the oldest first. -/
  offered : Array Bus.Message := #[]
  deriving Inhabited

namespace Bus

/-- Offers an event. -/
def offer (m : Message) (b : Bus) : Delivery × Bus :=
  let b := { b with offered := b.offered.push m }
  match b.availability with
  | .accepting => (.taken, b)
  | .failing => (.refused, b)
  | .stalled => (.stalled, b)

/-- The bus as a sink. -/
def sink : Sink Message Bus := ⟨offer⟩

/-- What the bus took and shows, and the bus with an empty log. -/
def collect (b : Bus) : List Message × Bus :=
  (if b.records && b.availability = .accepting then b.offered.toList else [],
   { b with offered := #[] })

end Bus

end IssueTracker
