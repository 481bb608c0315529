/-
  IssueTracker/Topic/Basic.lean --- topics and the patterns that match them.

  A topic is a list of segments between dots, such as `beads.bead.created`.  In a
  pattern the segment `*` stands for any one segment, and `>` for all that is left, of
  which there has to be at least one.  Inside a longer segment both are plain
  characters.
-/
import IssueTracker.Text.Split

set_option autoImplicit false

namespace IssueTracker

namespace Topic

/-! ## The topics of the tracker -/

/-- The topic of created beads. -/
def beadCreated : String := "beads.bead.created"

/-- The topic of updated beads. -/
def beadUpdated : String := "beads.bead.updated"

/-- The topic of closed beads. -/
def beadClosed : String := "beads.bead.closed"

/-- The topic of reopened beads. -/
def beadReopened : String := "beads.bead.reopened"

/-- The topic of deleted beads. -/
def beadDeleted : String := "beads.bead.deleted"

/-- The topic of added labels. -/
def labelAdded : String := "beads.label.added"

/-- The topic of removed labels. -/
def labelRemoved : String := "beads.label.removed"

/-- The topic of added dependencies. -/
def dependencyAdded : String := "beads.dependency.added"

/-- The topic of removed dependencies. -/
def dependencyRemoved : String := "beads.dependency.removed"

/-- The topic of added comments. -/
def commentAdded : String := "beads.comment.added"

/-- All topics of the tracker. -/
def all : List String :=
  [beadCreated, beadUpdated, beadClosed, beadReopened, beadDeleted, labelAdded, labelRemoved,
   dependencyAdded, dependencyRemoved, commentAdded]

/-! ## Matching -/

/-- The segments of a topic or pattern. -/
def segments (topic : String) : List (List Char) := Text.split '.' topic.toList

/-- Does a list of segments match a list of pattern segments? -/
def matchSegments : List (List Char) → List (List Char) → Bool
  | [], topic => topic.isEmpty
  | _ :: _, [] => false
  | p :: ps, t :: ts =>
      if p = ['>'] then true
      else if p = ['*'] || p = t then matchSegments ps ts
      else false

/-- Does a topic match a pattern?  A topic matches itself. -/
def satisfies (pattern topic : String) : Bool :=
  pattern == topic || matchSegments (segments pattern) (segments topic)

end Topic

end IssueTracker
