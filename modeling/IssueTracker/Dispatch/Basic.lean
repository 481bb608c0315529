/-
  IssueTracker/Dispatch/Basic.lean --- handing an event to all who want it.

  An event goes to the ledger, then to the bus, then to the hub, in the same JSON text.
  Whether the ledger and the bus take it does not matter to the others: one that does
  not answer is waited for until the timeout.  A payload that is not JSON reaches none of
  the three.
-/
import IssueTracker.Bus.Basic
import IssueTracker.Hub.Basic
import IssueTracker.Ledger.Sink

set_option autoImplicit false

namespace IssueTracker

namespace Dispatch

/-- An event to hand out. -/
structure Call where
  topic : String
  correlationId : String
  actor : String
  /-- The payload; `none` for one that has no JSON form. -/
  payload : Option Json
  deriving Inhabited

/-- The two sinks and the hub. -/
structure State (α β : Type) where
  ledger : α
  bus : β
  hub : Hub

/-- The seconds for which a delivery is waited for. -/
def waited (timeout : Nat) : Delivery → Nat
  | .stalled => timeout
  | _ => 0

/-- Hands out an event; gives the seconds that passed. -/
def run {α β : Type} (ledger : Sink Ledger.Entry α) (bus : Sink Bus.Message β) (timeout : Nat)
    (c : Call) (s : State α β) : Nat × State α β :=
  match c.payload with
  | none => (0, s)
  | some payload =>
      let text := payload.render
      let (fromLedger, ledgerState) :=
        ledger.offer ⟨c.topic, c.correlationId, c.actor, text⟩ s.ledger
      let (fromBus, busState) := bus.offer ⟨c.topic, text⟩ s.bus
      let (_, hub) := s.hub.broadcast c.topic text
      (waited timeout fromLedger + waited timeout fromBus, ⟨ledgerState, busState, hub⟩)

end Dispatch

end IssueTracker
