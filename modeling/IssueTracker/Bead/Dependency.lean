/-
  IssueTracker/Bead/Dependency.lean --- dependencies between beads.

  A dependency is a directed edge: the dependent bead needs the prerequisite one.  Only
  edges of kind `blocks` hold work back; the other kinds are remarks.
-/
import IssueTracker.Bead.Basic

set_option autoImplicit false

namespace IssueTracker

namespace Dependency

/-- What a dependency means. -/
inductive Kind where
  /-- The dependent cannot start until the prerequisite is closed. -/
  | blocks
  | related
  | parentChild
  | discoveredFrom
  deriving DecidableEq, Repr, Inhabited

namespace Kind

/-- The names of the kinds. -/
def table : List (String × Kind) :=
  [("blocks", blocks), ("related", related), ("parent_child", parentChild),
   ("discovered_from", discoveredFrom)]

/-- The name of a kind. -/
def name : Kind → String
  | blocks => "blocks"
  | related => "related"
  | parentChild => "parent_child"
  | discoveredFrom => "discovered_from"

/-- The name as JSON. -/
def toJson (k : Kind) : Json := .text k.name

/-- Reads a name. -/
def read : Json.Reader Kind := Json.Doc.asName table

theorem lookup_name (k : Kind) : table.lookup k.name = some k := by cases k <;> decide

end Kind

end Dependency

/-- An edge between two beads, named by their identities. -/
structure Dependency where
  /-- The bead that needs the other one. -/
  dependent : String
  /-- The bead that is needed. -/
  prerequisite : String
  kind : Dependency.Kind
  createdAt : Instant
  deriving DecidableEq, Repr, Inhabited

namespace Dependency

/-- Does the edge lead from the one bead to the other? -/
def joins (dependent prerequisite : String) (d : Dependency) : Bool :=
  d.dependent == dependent && d.prerequisite == prerequisite

theorem joins_iff {dependent prerequisite : String} {d : Dependency} :
    d.joins dependent prerequisite = true ↔
      d.dependent = dependent ∧ d.prerequisite = prerequisite := by
  simp [joins]

/-- Is the bead an endpoint of the edge? -/
def touches (id : String) (d : Dependency) : Bool := d.dependent == id || d.prerequisite == id

theorem touches_iff {id : String} {d : Dependency} :
    d.touches id = true ↔ d.dependent = id ∨ d.prerequisite = id := by
  simp [touches]

/-- A dependency as JSON. -/
def toJson (d : Dependency) : Json :=
  .object [("from_id", .text d.dependent), ("to_id", .text d.prerequisite),
    ("kind", d.kind.toJson), ("created_at", d.createdAt.toJson)]

open Json (Field) in
/-- The fields of a dependency. -/
def fields : List Field :=
  [.required "from_id" Json.Doc.asText,
   .required "to_id" Json.Doc.asText,
   .required "kind" Kind.read,
   .required "created_at" Instant.readJson]

/-- Reads a dependency. -/
def read : Json.Reader Dependency := fun d => do
  let r ← d.record fields
  return {
    dependent := ← r.get "from_id" Json.Doc.asText
    prerequisite := ← r.get "to_id" Json.Doc.asText
    kind := ← r.get "kind" Kind.read
    createdAt := ← r.get "created_at" Instant.readJson }

end Dependency

end IssueTracker
