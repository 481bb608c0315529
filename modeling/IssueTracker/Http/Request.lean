/-
  IssueTracker/Http/Request.lean --- requests.

  A request has a method, a target, headers and a body.  The target is a path, and a query behind
  the first question mark.  The names of headers do not differ by case; of several headers of
  one name the first counts, and only if its value is plain text.
-/
import IssueTracker.Text.Blank
import IssueTracker.Text.Split

set_option autoImplicit false

namespace IssueTracker

namespace Http

/-- The methods that the service knows. -/
inductive Method where
  | get
  | head
  | post
  | patch
  | delete
  | other
  deriving DecidableEq, Repr, Inhabited

namespace Method

/-- The method of a name. -/
def ofName (name : String) : Method :=
  if name = "GET" then get
  else if name = "HEAD" then head
  else if name = "POST" then post
  else if name = "PATCH" then patch
  else if name = "DELETE" then delete
  else other

/-- The name of a method. -/
def name : Method → String
  | get => "GET"
  | head => "HEAD"
  | post => "POST"
  | patch => "PATCH"
  | delete => "DELETE"
  | other => ""

end Method

/-- A request. -/
structure Request where
  method : Method
  /-- The path, and the query behind a question mark. -/
  target : String
  headers : List (String × String) := []
  body : String := ""
  deriving DecidableEq, Repr, Inhabited

namespace Request

/-! ## Target -/

/-- The target without a fragment. -/
def visibleTarget (r : Request) : List Char := (Text.cut '#' r.target.toList).1

/-- The path as it is sent. -/
def path (r : Request) : List Char := (Text.cut '?' r.visibleTarget).1

/-- The query as it is sent; empty if there is none. -/
def query (r : Request) : List Char := ((Text.cut '?' r.visibleTarget).2).getD []

/-! ## Headers -/

/-- May the character stand in the value of a header that is read as text? -/
def isHeaderChar (c : Char) : Bool := (0x20 ≤ c.toNat && c.toNat ≤ 0x7E) || c = '\t'

/-- Do two names of headers differ by case at most? -/
def sameName (a b : String) : Bool := a.toList.map Char.toLower == b.toList.map Char.toLower

/-- The value of the first header of a name, if it is plain text. -/
def header? (r : Request) (name : String) : Option String :=
  match r.headers.find? fun h => sameName h.1 name with
  | some (_, value) => if value.toList.all isHeaderChar then some value else none
  | none => none

/-- The value of a header without blanks around it, if something is left. -/
def headerText? (r : Request) (name : String) : Option String :=
  match r.header? name with
  | some value => if Text.trimmed value = "" then none else some (Text.trimmed value)
  | none => none

end Request

end Http

end IssueTracker
