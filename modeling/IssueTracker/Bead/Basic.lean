/-
  IssueTracker/Bead/Basic.lean --- beads.

  A bead is one issue: what is to be done, how urgent it is, who does it, and how
  far it is.  This module holds the type, the names of its enumerations, and the JSON
  form in which a bead is answered, published and read.
-/
import IssueTracker.Bead.Labels
import IssueTracker.Instant.Rfc3339

set_option autoImplicit false

namespace IssueTracker

/-! ## Enumerations -/

/-- How far a bead is. -/
inductive Status where
  | opened
  | inProgress
  | blocked
  | closed
  deriving DecidableEq, Repr, Inhabited

namespace Status

/-- The names of the statuses. -/
def table : List (String × Status) :=
  [("open", opened), ("in_progress", inProgress), ("blocked", blocked), ("closed", closed)]

/-- The name of a status. -/
def name : Status → String
  | opened => "open"
  | inProgress => "in_progress"
  | blocked => "blocked"
  | closed => "closed"

/-- Is the work over? -/
def isClosed (s : Status) : Bool := s = closed

theorem isClosed_iff {s : Status} : s.isClosed = true ↔ s = closed := by simp [isClosed]

/-- The name as JSON. -/
def toJson (s : Status) : Json := .text s.name

/-- Reads a name. -/
def read : Json.Reader Status := Json.Doc.asName table

theorem lookup_name (s : Status) : table.lookup s.name = some s := by cases s <;> decide

end Status

/-- What kind of work a bead is. -/
inductive IssueType where
  | bug
  | feature
  | task
  | epic
  | chore
  deriving DecidableEq, Repr

namespace IssueType

/-- The names of the kinds of work. -/
def table : List (String × IssueType) :=
  [("bug", bug), ("feature", feature), ("task", task), ("epic", epic), ("chore", chore)]

/-- The name of a kind of work. -/
def name : IssueType → String
  | bug => "bug"
  | feature => "feature"
  | task => "task"
  | epic => "epic"
  | chore => "chore"

/-- A bead is a task unless something else is said. -/
instance : Inhabited IssueType := ⟨task⟩

/-- The name as JSON. -/
def toJson (t : IssueType) : Json := .text t.name

/-- Reads a name. -/
def read : Json.Reader IssueType := Json.Doc.asName table

theorem lookup_name (t : IssueType) : table.lookup t.name = some t := by cases t <;> decide

end IssueType

/-! ## Times -/

namespace Instant

/-- The instant as RFC 3339 text. -/
def toJson (t : Instant) : Json := .text t.write

/-- Reads RFC 3339 text. -/
def readJson : Json.Reader Instant := fun d => do
  let s ← d.asText
  match read? s with
  | some t => .ok t
  | none => .error .mismatch

end Instant

/-! ## Beads -/

/-- The greatest priority, which is the least urgent one. -/
def greatestPriority : Nat := 4

/-- The greatest number that reads as a priority. -/
def priorityLimit : Nat := 255

/-- One issue. -/
structure Bead where
  id : String
  title : String
  description : String
  status : Status
  /-- Urgency; 0 is the most urgent. -/
  priority : Nat
  issueType : IssueType
  assignee : Option String
  labels : Labels
  createdAt : Instant
  updatedAt : Instant
  closedAt : Option Instant
  closeReason : Option String
  deriving DecidableEq, Inhabited

namespace Bead

/-- The members of a bead as a JSON object. -/
def members (b : Bead) : List (String × Json) :=
  [("id", .text b.id),
   ("title", .text b.title),
   ("description", .text b.description),
   ("status", b.status.toJson),
   ("priority", .int b.priority),
   ("issue_type", b.issueType.toJson),
   ("assignee", Json.textOrNull b.assignee),
   ("labels", b.labels.toJson),
   ("created_at", b.createdAt.toJson),
   ("updated_at", b.updatedAt.toJson),
   ("closed_at", match b.closedAt with | some t => t.toJson | none => .null),
   ("close_reason", Json.textOrNull b.closeReason)]

/-- A bead as JSON. -/
def toJson (b : Bead) : Json := .object b.members

open Json (Field) in
/-- The fields of a bead. -/
def fields : List Field :=
  [.required "id" Json.Doc.asText,
   .required "title" Json.Doc.asText,
   .required "description" Json.Doc.asText,
   .required "status" Status.read,
   .required "priority" (Json.Doc.asNat priorityLimit),
   .required "issue_type" IssueType.read,
   .optionalIn "assignee" (Json.Doc.asOption Json.Doc.asText),
   .required "labels" Labels.read,
   .required "created_at" Instant.readJson,
   .required "updated_at" Instant.readJson,
   .optionalIn "closed_at" (Json.Doc.asOption Instant.readJson),
   .optionalIn "close_reason" (Json.Doc.asOption Json.Doc.asText)]

/-- Reads a bead. -/
def read : Json.Reader Bead := fun d => do
  let r ← d.record fields
  return {
    id := ← r.get "id" Json.Doc.asText
    title := ← r.get "title" Json.Doc.asText
    description := ← r.get "description" Json.Doc.asText
    status := ← r.get "status" Status.read
    priority := ← r.get "priority" (Json.Doc.asNat priorityLimit)
    issueType := ← r.get "issue_type" IssueType.read
    assignee := ← r.getD "assignee" (Json.Doc.asOption Json.Doc.asText) none
    labels := ← r.get "labels" Labels.read
    createdAt := ← r.get "created_at" Instant.readJson
    updatedAt := ← r.get "updated_at" Instant.readJson
    closedAt := ← r.getD "closed_at" (Json.Doc.asOption Instant.readJson) none
    closeReason := ← r.getD "close_reason" (Json.Doc.asOption Json.Doc.asText) none }

end Bead

end IssueTracker
