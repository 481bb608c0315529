/-
  IssueTracker/Store/Change.lean --- operations as values, and what they change.

  An `Operation` is one call that may change the store, a `Change` what it did.  A change
  has a topic and a payload, under which it is published, and an answer for the
  client.  `perform` does an operation, `run` a list of them, each with the reading of the
  clock at its time.
-/
import IssueTracker.Store.Listing
import IssueTracker.Topic.Basic

set_option autoImplicit false

namespace IssueTracker

namespace Store

/-- A call that may change the store. -/
inductive Operation where
  | create (draft : Draft)
  | update (id : String) (patch : Patch)
  | close (id : String) (reason : Option String)
  | reopen (id : String)
  | delete (id : String)
  | addLabel (id label : String)
  | removeLabel (id label : String)
  | addDependency (dependent prerequisite : String) (kind : Dependency.Kind)
  | removeDependency (dependent prerequisite : String)
  | addComment (id author text : String)
  deriving DecidableEq, Repr, Inhabited

/-- What an operation did. -/
inductive Change where
  | created (bead : Bead)
  | updated (bead : Bead)
  | closed (bead : Bead)
  | reopened (bead : Bead)
  | deleted (bead : Bead)
  | labelAdded (bead : Bead) (label : String)
  | labelRemoved (bead : Bead) (label : String)
  | dependencyAdded (dependency : Dependency)
  | dependencyRemoved (dependency : Dependency)
  | commentAdded (comment : Comment)
  deriving DecidableEq, Inhabited

namespace Change

/-- The topic under which a change is published. -/
def topic : Change → String
  | created _ => Topic.beadCreated
  | updated _ => Topic.beadUpdated
  | closed _ => Topic.beadClosed
  | reopened _ => Topic.beadReopened
  | deleted _ => Topic.beadDeleted
  | labelAdded _ _ => Topic.labelAdded
  | labelRemoved _ _ => Topic.labelRemoved
  | dependencyAdded _ => Topic.dependencyAdded
  | dependencyRemoved _ => Topic.dependencyRemoved
  | commentAdded _ => Topic.commentAdded

/-- The value with which a change is published. -/
def payload : Change → Json
  | created b | updated b | closed b | reopened b => b.toJson
  | deleted b => .object [("id", .text b.id), ("title", .text b.title)]
  | labelAdded b label | labelRemoved b label =>
      .object [("bead_id", .text b.id), ("label", .text label)]
  | dependencyAdded d | dependencyRemoved d => d.toJson
  | commentAdded c => c.toJson

/-- The value that the client is answered. -/
def answer : Change → Json
  | created b | updated b | closed b | reopened b => b.toJson
  | deleted _ => .null
  | labelAdded b _ | labelRemoved b _ => b.toJson
  | dependencyAdded d | dependencyRemoved d => d.toJson
  | commentAdded c => c.toJson

end Change

/-- An outcome with its value as a change. -/
def Outcome.map {α β : Type} (f : α → β) : Outcome α → Outcome β
  | (.ok a, s) => (.ok (f a), s)
  | (.error fault, s) => (.error fault, s)

/-- Does an operation.  A label is published in its trimmed form when it is added, and as
it was spelled when it is removed. -/
def perform (now : Instant) (s : Store) : Operation → Outcome Change
  | .create draft => (s.create now draft).map .created
  | .update id patch => (s.update now id patch).map .updated
  | .close id reason => (s.close now id reason).map .closed
  | .reopen id => (s.reopen now id).map .reopened
  | .delete id => (s.delete id).map .deleted
  | .addLabel id label => (s.addLabel now id label).map (.labelAdded · (Text.trimmed label))
  | .removeLabel id label => (s.removeLabel now id label).map (.labelRemoved · label)
  | .addDependency dependent prerequisite kind =>
      (s.addDependency now dependent prerequisite kind).map .dependencyAdded
  | .removeDependency dependent prerequisite =>
      (s.removeDependency dependent prerequisite).map .dependencyRemoved
  | .addComment id author text => (s.addComment now id author text).map .commentAdded

/-! ## Runs -/

/-- The store after an operation. -/
def step (s : Store) (now : Instant) (op : Operation) : Store := (s.perform now op).2

/-- The store after operations, each with its reading of the clock. -/
def run (s : Store) : List (Instant × Operation) → Store
  | [] => s
  | (now, op) :: rest => (s.step now op).run rest

theorem run_append (s : Store) (first second : List (Instant × Operation)) :
    s.run (first ++ second) = (s.run first).run second := by
  induction first generalizing s with
  | nil => rfl
  | cons x first ih => exact ih _

end Store

end IssueTracker
