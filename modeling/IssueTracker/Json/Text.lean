/-
  IssueTracker/Json/Text.lean --- reading any JSON text as a value.
-/
import IssueTracker.Json.Read
import IssueTracker.Json.Value

set_option autoImplicit false

namespace IssueTracker.Json

/-- Reads whatever value there is. -/
def Doc.asValue : Reader Json := fun d =>
  match ofDoc? d with
  | some j => .ok j
  | none => .error .malformed

/-- The value of a whole text. -/
def ofText (s : String) : Except Fault Json := readText Doc.asValue s

end IssueTracker.Json
