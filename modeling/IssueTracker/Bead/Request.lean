/-
  IssueTracker/Bead/Request.lean --- what clients ask for.

  A `Draft` describes a bead to create, a `Patch` changes to one, a `Query` which beads
  to list.  The smaller requests are a reason to close, a label, an edge and the
  text of a comment.  This module only reads them; what they may hold is decided by
  the store.
-/
import IssueTracker.Bead.Dependency

set_option autoImplicit false

namespace IssueTracker

/-! ## Creating -/

/-- A bead that is asked for. -/
structure Draft where
  title : String
  description : String := ""
  priority : Nat := 2
  issueType : IssueType := .task
  assignee : Option String := none
  labels : List String := []
  deriving DecidableEq, Repr, Inhabited

namespace Draft

open Json (Field) in
/-- The fields of a draft; only the title has to be there. -/
def fields : List Field :=
  [.required "title" Json.Doc.asText,
   .withDefault "description" Json.Doc.asText,
   .withDefault "priority" (Json.Doc.asNat priorityLimit),
   .withDefault "issue_type" IssueType.read,
   .withDefault "assignee" (Json.Doc.asOption Json.Doc.asText),
   .withDefault "labels" (Json.Doc.asList Json.Doc.asText)]

/-- Reads a draft. -/
def read : Json.Reader Draft := fun d => do
  let r ← d.record fields
  return {
    title := ← r.get "title" Json.Doc.asText
    description := ← r.getD "description" Json.Doc.asText ""
    priority := ← r.getD "priority" (Json.Doc.asNat priorityLimit) 2
    issueType := ← r.getD "issue_type" IssueType.read .task
    assignee := ← r.getD "assignee" (Json.Doc.asOption Json.Doc.asText) none
    labels := ← r.getD "labels" (Json.Doc.asList Json.Doc.asText) [] }

end Draft

/-! ## Changing -/

/-- What becomes of the assignee. -/
inductive Reassignment where
  | keep
  | clear
  | assign (name : String)
  deriving DecidableEq, Repr, Inhabited

namespace Reassignment

/-- The assignee afterwards. -/
def apply (old : Option String) : Reassignment → Option String
  | keep => old
  | clear => none
  | assign name => some name

/-- Reads null as clearing and a text as assigning. -/
def read : Json.Reader Reassignment := fun d => do
  match ← d.asOption Json.Doc.asText with
  | none => return clear
  | some name => return assign name

end Reassignment

/-- Changes to a bead; what is `none` stays. -/
structure Patch where
  title : Option String := none
  description : Option String := none
  status : Option Status := none
  priority : Option Nat := none
  issueType : Option IssueType := none
  assignee : Reassignment := .keep
  deriving DecidableEq, Repr, Inhabited

namespace Patch

open Json (Field) in
/-- The fields of a patch.  In an object a missing field and null both mean that
nothing changes, the assignee apart, which null clears. -/
def fields : List Field :=
  [.optionalIn "title" (Json.Doc.asOption Json.Doc.asText),
   .optionalIn "description" (Json.Doc.asOption Json.Doc.asText),
   .optionalIn "status" (Json.Doc.asOption Status.read),
   .optionalIn "priority" (Json.Doc.asOption (Json.Doc.asNat priorityLimit)),
   .optionalIn "issue_type" (Json.Doc.asOption IssueType.read),
   .withDefault "assignee" Reassignment.read]

/-- Reads a patch. -/
def read : Json.Reader Patch := fun d => do
  let r ← d.record fields
  return {
    title := ← r.getD "title" (Json.Doc.asOption Json.Doc.asText) none
    description := ← r.getD "description" (Json.Doc.asOption Json.Doc.asText) none
    status := ← r.getD "status" (Json.Doc.asOption Status.read) none
    priority := ← r.getD "priority" (Json.Doc.asOption (Json.Doc.asNat priorityLimit)) none
    issueType := ← r.getD "issue_type" (Json.Doc.asOption IssueType.read) none
    assignee := ← r.getD "assignee" Reassignment.read .keep }

end Patch

/-! ## Listing -/

/-- Which beads to list; a criterion that is `none` accepts all. -/
structure Query where
  status : Option Status := none
  label : Option String := none
  assignee : Option String := none
  deriving DecidableEq, Repr, Inhabited

namespace Query

/-- Does the bead meet all criteria? -/
def accepts (q : Query) (b : Bead) : Bool :=
  (match q.status with | none => true | some s => b.status = s) &&
  (match q.label with | none => true | some l => decide (l ∈ b.labels)) &&
  (match q.assignee with | none => true | some a => b.assignee = some a)

open Json (Field) in
/-- The fields of a query. -/
def fields : List Field :=
  [.optionalIn "status" (Json.Doc.asOption Status.read),
   .optionalIn "label" (Json.Doc.asOption Json.Doc.asText),
   .optionalIn "assignee" (Json.Doc.asOption Json.Doc.asText)]

/-- Reads a query. -/
def read : Json.Reader Query := fun d => do
  let r ← d.record fields
  return {
    status := ← r.getD "status" (Json.Doc.asOption Status.read) none
    label := ← r.getD "label" (Json.Doc.asOption Json.Doc.asText) none
    assignee := ← r.getD "assignee" (Json.Doc.asOption Json.Doc.asText) none }

end Query

/-! ## The smaller requests -/

/-- Reads why a bead is closed. -/
def readCloseReason : Json.Reader (Option String) := fun d => do
  let r ← d.record [.withDefault "reason" (Json.Doc.asOption Json.Doc.asText)]
  r.getD "reason" (Json.Doc.asOption Json.Doc.asText) none

/-- Reads a label. -/
def readLabel : Json.Reader String := fun d => do
  let r ← d.record [.required "label" Json.Doc.asText]
  r.get "label" Json.Doc.asText

/-- Reads the text of a comment. -/
def readCommentText : Json.Reader String := fun d => do
  let r ← d.record [.required "text" Json.Doc.asText]
  r.get "text" Json.Doc.asText

/-- An edge that is asked for. -/
structure DependencyDraft where
  dependsOn : String
  kind : Dependency.Kind := .blocks
  deriving DecidableEq, Repr, Inhabited

/-- Reads an edge that is asked for. -/
def DependencyDraft.read : Json.Reader DependencyDraft := fun d => do
  let r ← d.record
    [.required "depends_on" Json.Doc.asText, .withDefault "kind" Dependency.Kind.read]
  return {
    dependsOn := ← r.get "depends_on" Json.Doc.asText
    kind := ← r.getD "kind" Dependency.Kind.read .blocks }

end IssueTracker
