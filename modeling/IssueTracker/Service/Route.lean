/-
  IssueTracker/Service/Route.lean --- the places of the service.

  A path is matched segment by segment.  A segment that names something may be empty in the
  middle of a path and not at its end, and a fixed segment wins over a name.
-/
import IssueTracker.Http.Request
import IssueTracker.Text.Percent
import IssueTracker.Text.Utf8

set_option autoImplicit false

namespace IssueTracker

namespace Service

open Http (Method)

/-- A place of the service. -/
inductive Place where
  | health
  | beads
  | ready
  | bead
  | close
  | reopen
  | labels
  | label
  | dependencies
  | dependency
  | comments
  | events
  | statistics
  | stream
  deriving DecidableEq, Repr, Inhabited

namespace Place

/-- The methods that a place knows, in the order in which they are told. -/
def methods : Place → List Method
  | health | ready | events | statistics | stream => [.get, .head]
  | beads | dependencies | comments => [.get, .head, .post]
  | bead => [.get, .head, .patch, .delete]
  | close | reopen | labels => [.post]
  | label | dependency => [.delete]

/-- The methods as they are told. -/
def allowed (p : Place) : String := String.intercalate "," (p.methods.map Method.name)

/-- The place behind the path of a bead, by the segment that follows. -/
def ofTail? (tail : String) : Option Place :=
  if tail = "close" then some close
  else if tail = "reopen" then some reopen
  else if tail = "labels" then some labels
  else if tail = "dependencies" then some dependencies
  else if tail = "comments" then some comments
  else none

/-- The place of one member of a collection of a bead. -/
def ofMember? (collection : String) : Option Place :=
  if collection = "labels" then some label
  else if collection = "dependencies" then some dependency
  else none

/-- The place below the events, by the segment that follows. -/
def ofEvents? (tail : String) : Option Place :=
  if tail = "stats" then some statistics
  else if tail = "stream" then some stream
  else none

/-- The place of the segments of a path, and the segments that name something. -/
def ofSegments? : List String → Option (Place × List String)
  | ["", "api"] => some (health, [])
  | ["", "api", "beads"] => some (beads, [])
  | ["", "api", "events"] => some (events, [])
  | ["", "api", "events", tail] => (ofEvents? tail).map (·, [])
  | ["", "api", "beads", id] =>
      if id = "ready" then some (ready, [])
      else if id = "" then none
      else some (bead, [id])
  | ["", "api", "beads", id, tail] => (ofTail? tail).map (·, [id])
  | ["", "api", "beads", id, collection, member] =>
      if member = "" then none else (ofMember? collection).map (·, [id, member])
  | _ => none

/-- The place of a path as it is sent. -/
def ofPath? (path : List Char) : Option (Place × List String) :=
  ofSegments? ((Text.split '/' path).map String.ofList)

end Place

/-- The text of a segment that names something; `none` if its bytes are no text. -/
def decodeSegment? (segment : String) : Option String :=
  (Text.Utf8.decode? (Text.Percent.decode (Text.Utf8.bytes segment))).map String.ofList

/-- The texts of the segments that name something. -/
def decodeSegments? : List String → Option (List String)
  | [] => some []
  | s :: ss => do
      let text ← decodeSegment? s
      let texts ← decodeSegments? ss
      return text :: texts

end Service

end IssueTracker
