/-
  IssueTracker/Service/Access.lean --- who may use the service.

  If the settings hold a token, a client has to show exactly that token.
-/
import IssueTracker.Settings.Basic

set_option autoImplicit false

namespace IssueTracker

namespace Access

/-- Does a token open the service? -/
def tokenOpens (settings : Settings) (token : String) : Bool :=
  !settings.authEnabled || token == settings.userToken

/-- Is a client with this token, or without one, let in? -/
def isGranted (settings : Settings) (token : Option String) : Bool :=
  !settings.authEnabled || token.any (tokenOpens settings)

/-- The status with which a client is turned away. -/
def refusalStatus : Nat := 401

/-- The status for a client that is not let in. -/
def refusal? (settings : Settings) (token : Option String) : Option Nat :=
  if isGranted settings token then none else some refusalStatus

end Access

end IssueTracker
