/-
  IssueTracker/Store/Listing.lean --- what the store shows.

  Beads are listed by urgency, then age, then identity.  A bead is ready if it is open
  and every bead that blocks it is closed.
-/
import IssueTracker.Store.Basic

set_option autoImplicit false

namespace IssueTracker

/-- The order in which beads are listed: by priority, then by the time of creation, then by
identity as a text. -/
def Bead.listsBefore (a b : Bead) : Bool :=
  if a.priority = b.priority then
    if a.createdAt = b.createdAt then a.id ≤ b.id
    else a.createdAt.notAfter b.createdAt
  else a.priority < b.priority

namespace Store

/-- The beads in the order in which they are listed. -/
def listed (beads : List Bead) : List Bead := beads.mergeSort Bead.listsBefore

/-- The beads that meet a query. -/
def list (q : Query) (s : Store) : List Bead := listed (s.beads.filter q.accepts)

/-- Is the bead of an identity closed, or is there none? -/
def isSettled (s : Store) (id : String) : Bool :=
  match s.get? id with
  | some b => b.status.isClosed
  | none => true

/-- Is the bead open, and is all closed that blocks it? -/
def isReady (s : Store) (b : Bead) : Bool :=
  b.status = .opened && (Graph.prerequisites s.dependencies b.id).all s.isSettled

/-- The beads on which work can start. -/
def ready (s : Store) : List Bead := listed (s.beads.filter s.isReady)

/-! ## One bead -/

/-- The edges of a bead in the two directions. -/
structure Edges where
  /-- Edges that lead from the bead. -/
  dependsOn : List Dependency
  /-- Edges that lead to the bead. -/
  dependents : List Dependency
  deriving DecidableEq, Repr

/-- The edges as JSON. -/
def Edges.toJson (e : Edges) : Json :=
  .object [("depends_on", .list (e.dependsOn.map Dependency.toJson)),
    ("dependents", .list (e.dependents.map Dependency.toJson))]

/-- The edges of an identity. -/
def edgesOf (s : Store) (id : String) : Edges :=
  { dependsOn := s.dependencies.filter (·.dependent == id)
    dependents := s.dependencies.filter fun d => d.prerequisite == id && d.dependent != id }

/-- The comments on an identity. -/
def commentsOn (s : Store) (id : String) : List Comment := s.comments.filter (·.beadId == id)

/-- A bead with all that belongs to it. -/
structure Detail where
  bead : Bead
  edges : Edges
  comments : List Comment
  deriving DecidableEq

/-- A detail as JSON: the members of the bead, then its edges and its comments. -/
def Detail.toJson (d : Detail) : Json :=
  .object (d.bead.members ++
    [("dependencies", d.edges.toJson), ("comments", .list (d.comments.map Comment.toJson))])

/-- The edges of a bead. -/
def edges (s : Store) (id : String) : Except Fault Edges :=
  match s.get id with
  | .ok _ => .ok (s.edgesOf id)
  | .error f => .error f

/-- The comments on a bead. -/
def commentList (s : Store) (id : String) : Except Fault (List Comment) :=
  match s.get id with
  | .ok _ => .ok (s.commentsOn id)
  | .error f => .error f

/-- A bead with its edges and comments. -/
def detail (s : Store) (id : String) : Except Fault Detail :=
  match s.get id with
  | .ok b => .ok ⟨b, s.edgesOf id, s.commentsOn id⟩
  | .error f => .error f

end Store

end IssueTracker
