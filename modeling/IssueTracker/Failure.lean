/-
  IssueTracker/Failure.lean --- the ways in which a request fails.

  A failure names its kind; the message leads with the kind, and the HTTP status follows
  from it.
-/
import IssueTracker.Text.Decimal

set_option autoImplicit false

namespace IssueTracker

/-- Why the message bus did not take an event. -/
inductive BusFailure where
  /-- No answer came. -/
  | network (reason : String)
  /-- The bus answered with a status that is not a success. -/
  | rejected (status : Nat) (body : String)
  /-- The client of the bus could not be built. -/
  | client (reason : String)
  deriving DecidableEq, Repr, Inhabited

/-- The text of a failure of the bus. -/
def BusFailure.message : BusFailure → String
  | network reason => "network error: " ++ reason
  | rejected status body => "bus rejected event " ++ Text.decimal status ++ ": " ++ body
  | client reason => "failed to build bus client: " ++ reason

/-- Why a request fails. -/
inductive Failure where
  | configuration (reason : String)
  | ledger (reason : String)
  | bus (cause : BusFailure)
  | notFound (what : String)
  | invalidInput (what : String)
  | conflict (what : String)
  | internal
  deriving DecidableEq, Repr, Inhabited

namespace Failure

/-- The text of a failure. -/
def message : Failure → String
  | configuration reason => "Configuration error: " ++ reason
  | ledger reason => "Ledger error: " ++ reason
  | bus cause => "Message bus error: " ++ cause.message
  | notFound what => "Not found: " ++ what
  | invalidInput what => "Invalid input: " ++ what
  | conflict what => "Conflict: " ++ what
  | internal => "Internal server error"

/-- The HTTP status of a failure. -/
def status : Failure → Nat
  | notFound _ => 404
  | invalidInput _ => 400
  | conflict _ => 409
  | configuration _ | ledger _ | bus _ | internal => 500

end Failure

end IssueTracker
