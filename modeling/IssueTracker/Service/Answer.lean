/-
  IssueTracker/Service/Answer.lean --- answers of the service.

  An answer has a status and a body, which is JSON or empty.  A request that fails gets its
  failure as an object with the member `error`.  A request that cannot be read at all is
  rejected with a plain text that nobody relies on, so it is left open here.
-/
import IssueTracker.Failure
import IssueTracker.Json.Value

set_option autoImplicit false

namespace IssueTracker

/-- What is sent back for a request that does not open a stream. -/
structure Answer where
  status : Nat
  /-- The type of the body, if there is one. -/
  contentType : Option String
  /-- The methods that the path knows, if the method was none of them. -/
  allow : Option String := none
  /-- The body; `none` for a text that is left open. -/
  body : Option String
  deriving DecidableEq, Repr, Inhabited

namespace Answer

/-- The type of JSON bodies. -/
def jsonType : String := "application/json"

/-- The type of rejections. -/
def textType : String := "text/plain; charset=utf-8"

/-- An answer in JSON. -/
def json (status : Nat) (j : Json) : Answer := ⟨status, some jsonType, none, some j.render⟩

/-- An answer to a request that went well. -/
def ok (j : Json) : Answer := json 200 j

/-- An answer that names what went wrong. -/
def error (status : Nat) (message : String) : Answer :=
  json status (.object [("error", .text message)])

/-- The answer to a failure. -/
def ofFailure (f : Failure) : Answer := error f.status f.message

/-- The answer to a client that shows no token. -/
def unauthorized : Answer := error 401 "Unauthorized"

/-- The answer to a request for something that is not there. -/
def notFound (message : String) : Answer := error 404 message

/-- The answer to a request that makes no sense. -/
def badRequest (message : String) : Answer := error 400 message

/-- The answer to a request that failed for reasons of the service. -/
def internal (message : String) : Answer := error 500 message

/-- The answer to a request that cannot be read. -/
def rejected (status : Nat) : Answer := ⟨status, some textType, none, none⟩

/-- The answer for a path that is unknown. -/
def noRoute : Answer := ⟨404, none, none, some ""⟩

/-- The answer for a method that the path does not know. -/
def noMethod (allow : String) : Answer := ⟨405, none, some allow, some ""⟩

/-- The answer with its body left out. -/
def withoutBody (a : Answer) : Answer := { a with body := some "" }

end Answer

/-- The head of a response that opens a stream. -/
structure StreamHead where
  status : Nat
  contentType : String
  cacheControl : String
  connection : String
  /-- May something between the service and the client hold frames back? -/
  buffering : String
  deriving DecidableEq, Repr, Inhabited

/-- Streams are sent at once: they are not cached, not held back, and the connection is kept. -/
def streamHead : StreamHead := ⟨200, "text/event-stream", "no-cache", "keep-alive", "no"⟩

end IssueTracker
