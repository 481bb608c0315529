/-
  IssueTracker/Hub/Event.lean --- events as the hub sends them.
-/
import IssueTracker.Stream.Frame

set_option autoImplicit false

namespace IssueTracker

/-- An event that was broadcast.  The hub numbers its events from one; the data is
text that it does not look into. -/
structure Event where
  sequence : Nat
  topic : String
  data : String
  deriving DecidableEq, Repr, Inhabited

/-- The event as a frame of the stream. -/
def Event.frame (e : Event) : Frame := .event e.sequence e.topic e.data

end IssueTracker
