/-
  IssueTracker/Bus/Publish.lean --- sending an event to the bus over HTTP.

  An event is sent as a POST of its JSON text.  A reply with a status from 200 to 299
  takes it, any other refuses it, and no reply is a failure of the network.
-/
import IssueTracker.Bus.Endpoint
import IssueTracker.Bus.Target
import IssueTracker.Failure

set_option autoImplicit false

namespace IssueTracker

namespace Bus

/-- A request to the bus. -/
structure Request where
  method : String
  target : String
  contentType : String
  body : String
  deriving DecidableEq, Repr, Inhabited

/-- A reply of the bus. -/
structure Reply where
  status : Nat
  body : String
  deriving DecidableEq, Repr, Inhabited

/-- The request that sends an event. -/
def request (address : String) (m : Message) : Request :=
  ⟨"POST", target (endpoint address m.topic), "application/json", m.payload⟩

/-- Does a reply with this status have a body? -/
def hasBody (status : Nat) : Bool := 200 ≤ status && status != 204 && status != 304

/-- The body without a mark of byte order before it. -/
def dropMark (body : String) : String :=
  match body.toList with
  | '\uFEFF' :: cs => String.ofList cs
  | _ => body

/-- What a reply means.  Interim replies, which announce another one, are none; only the one
that changes the protocol is final. -/
def readReply : Option Reply → Except BusFailure Unit
  | none => .error (.network "no reply")
  | some r =>
      if r.status < 200 && r.status != 101 then .error (.network "no reply")
      else if 200 ≤ r.status && r.status < 300 then .ok ()
      else .error (.rejected r.status (if hasBody r.status then dropMark r.body else ""))

end Bus

end IssueTracker
