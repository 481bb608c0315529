/-
  IssueTracker/Bead/Comment.lean --- comments on beads.
-/
import IssueTracker.Bead.Basic
import IssueTracker.Text.Decimal

set_option autoImplicit false

namespace IssueTracker

/-- A remark that somebody made on a bead. -/
structure Comment where
  id : Nat
  /-- The bead that the comment is on. -/
  beadId : String
  author : String
  text : String
  createdAt : Instant
  deriving DecidableEq, Repr, Inhabited

namespace Comment

/-- A comment as JSON. -/
def toJson (c : Comment) : Json :=
  .object [("id", .int c.id), ("bead_id", .text c.beadId), ("author", .text c.author),
    ("text", .text c.text), ("created_at", c.createdAt.toJson)]

open Json (Field) in
/-- The fields of a comment. -/
def fields : List Field :=
  [.required "id" (Json.Doc.asNat Text.maxWord64),
   .required "bead_id" Json.Doc.asText,
   .required "author" Json.Doc.asText,
   .required "text" Json.Doc.asText,
   .required "created_at" Instant.readJson]

/-- Reads a comment. -/
def read : Json.Reader Comment := fun d => do
  let r ← d.record fields
  return {
    id := ← r.get "id" (Json.Doc.asNat Text.maxWord64)
    beadId := ← r.get "bead_id" Json.Doc.asText
    author := ← r.get "author" Json.Doc.asText
    text := ← r.get "text" Json.Doc.asText
    createdAt := ← r.get "created_at" Instant.readJson }

end Comment

end IssueTracker
