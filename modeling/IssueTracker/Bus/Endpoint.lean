/-
  IssueTracker/Bus/Endpoint.lean --- where an event is sent on the bus.

  The bus has an address.  Slashes at its end do not count; the topic follows after
  one slash.
-/
import IssueTracker.Bus.Basic

set_option autoImplicit false

namespace IssueTracker

namespace Bus

/-- The address without the slashes at its end. -/
def base (address : String) : String :=
  String.ofList (address.toList.reverse.dropWhile (· == '/')).reverse

/-- The address for the events of a topic. -/
def endpoint (address topic : String) : String := base address ++ "/" ++ topic

end Bus

end IssueTracker
