/-
  IssueTracker/Store/Basic.lean --- the store of beads.

  The store holds the beads, the edges between them and the comments on them, and
  two counters that number beads and comments.  Every operation answers a value or a
  fault, and gives the store after it.  Beads, edges and comments stand in the
  order in which they came.
-/
import IssueTracker.Bead.Comment
import IssueTracker.Store.Graph
import IssueTracker.Store.Rules

set_option autoImplicit false

namespace IssueTracker

/-- The beads, the edges between them and the comments on them. -/
structure Store where
  /-- How many beads were created. -/
  created : Nat := 0
  /-- How many comments were made. -/
  commented : Nat := 0
  beads : List Bead := []
  dependencies : List Dependency := []
  comments : List Comment := []
  deriving DecidableEq, Inhabited

namespace Store

/-- What an operation answers, and the store after it. -/
abbrev Outcome (α : Type) : Type := Except Fault α × Store

/-- A store in which nothing was done. -/
def empty : Store := {}

/-! ## Looking up -/

/-- The bead of an identity. -/
def get? (s : Store) (id : String) : Option Bead := s.beads.find? (·.id == id)

/-- The bead of an identity, or the fault that there is none. -/
def get (s : Store) (id : String) : Except Fault Bead :=
  match s.get? id with
  | some b => .ok b
  | none => .error (.beadNotFound id)

/-- The store with a bead in the place of the one of its identity. -/
def put (b : Bead) (s : Store) : Store :=
  { s with beads := s.beads.map fun x => if x.id = b.id then b else x }

/-! ## Beads -/

/-- The identity of the n-th bead. -/
def beadId (n : Nat) : String := "bd-" ++ Text.decimal n

/-- The bead that is made of a draft whose title, priority and labels were checked. -/
def drafted (now : Instant) (n : Nat) (title : String) (priority : Nat) (labels : List String)
    (draft : Draft) : Bead :=
  { id := beadId n
    title
    description := draft.description
    status := .opened
    priority
    issueType := draft.issueType
    assignee := draft.assignee
    labels := Labels.ofList labels
    createdAt := now
    updatedAt := now
    closedAt := none
    closeReason := none }

/-- Creates an open bead. -/
def create (now : Instant) (draft : Draft) (s : Store) : Outcome Bead :=
  match checkTitle draft.title with
  | .error f => (.error f, s)
  | .ok title =>
      match checkPriority draft.priority with
      | .error f => (.error f, s)
      | .ok priority =>
          match checkLabels draft.labels with
          | .error f => (.error f, s)
          | .ok labels =>
              let b := drafted now (s.created + 1) title priority labels draft
              (.ok b, { s with created := s.created + 1, beads := s.beads ++ [b] })

/-- A value that is checked if it is there. -/
def checkGiven {α : Type} (check : α → Except Fault α) : Option α → Except Fault (Option α)
  | none => .ok none
  | some a =>
      match check a with
      | .ok kept => .ok (some kept)
      | .error f => .error f

/-- The bead with the changes of a patch whose title and priority were checked. -/
def patched (now : Instant) (title : Option String) (priority : Option Nat) (patch : Patch)
    (b : Bead) : Bead :=
  { b with
    status := patch.status.getD b.status
    title := title.getD b.title
    description := patch.description.getD b.description
    priority := priority.getD b.priority
    issueType := patch.issueType.getD b.issueType
    assignee := patch.assignee.apply b.assignee
    updatedAt := now }

/-- Would the patch close the bead, or open a closed one? -/
def changesClosedness (patch : Patch) (b : Bead) : Bool :=
  match patch.status with
  | none => false
  | some status => status.isClosed != b.status.isClosed

/-- Changes fields of a bead.  Whether it is closed does not change here. -/
def update (now : Instant) (id : String) (patch : Patch) (s : Store) : Outcome Bead :=
  match checkGiven checkTitle patch.title with
  | .error f => (.error f, s)
  | .ok title =>
      match checkGiven checkPriority patch.priority with
      | .error f => (.error f, s)
      | .ok priority =>
          match s.get id with
          | .error f => (.error f, s)
          | .ok b =>
              if changesClosedness patch b then (.error .closedStateChange, s)
              else
                let b' := patched now title priority patch b
                (.ok b', s.put b')

/-- The bead after it was closed. -/
def shut (now : Instant) (reason : Option String) (b : Bead) : Bead :=
  { b with status := .closed, closedAt := some now, closeReason := reason, updatedAt := now }

/-- Closes a bead that is not closed. -/
def close (now : Instant) (id : String) (reason : Option String) (s : Store) : Outcome Bead :=
  match s.get id with
  | .error f => (.error f, s)
  | .ok b =>
      if b.status.isClosed then (.error (.alreadyClosed id), s)
      else
        let b' := shut now reason b
        (.ok b', s.put b')

/-- The bead after it was opened again. -/
def reopened (now : Instant) (b : Bead) : Bead :=
  { b with status := .opened, closedAt := none, closeReason := none, updatedAt := now }

/-- Opens a closed bead. -/
def reopen (now : Instant) (id : String) (s : Store) : Outcome Bead :=
  match s.get id with
  | .error f => (.error f, s)
  | .ok b =>
      if b.status.isClosed then
        let b' := reopened now b
        (.ok b', s.put b')
      else (.error (.notClosed id), s)

/-- The store without the bead of an identity, and without its edges and comments. -/
def forget (id : String) (s : Store) : Store :=
  { s with
    beads := s.beads.filter (·.id != id)
    dependencies := s.dependencies.filter fun d => !d.touches id
    comments := s.comments.filter (·.beadId != id) }

/-- Removes a bead with its edges and comments. -/
def delete (id : String) (s : Store) : Outcome Bead :=
  match s.get id with
  | .error f => (.error f, s)
  | .ok b => (.ok b, s.forget id)

/-! ## Labels -/

/-- The bead with one label more. -/
def labelled (now : Instant) (label : String) (b : Bead) : Bead :=
  { b with labels := b.labels.insert label, updatedAt := now }

/-- Puts a label on a bead that does not have it. -/
def addLabel (now : Instant) (id label : String) (s : Store) : Outcome Bead :=
  match checkLabel label with
  | .error f => (.error f, s)
  | .ok kept =>
      match s.get id with
      | .error f => (.error f, s)
      | .ok b =>
          if kept ∈ b.labels then (.error (.labelPresent id kept), s)
          else
            let b' := labelled now kept b
            (.ok b', s.put b')

/-- The bead without a label. -/
def unlabelled (now : Instant) (label : String) (b : Bead) : Bead :=
  { b with labels := b.labels.erase label, updatedAt := now }

/-- Takes a label off a bead that has it.  The label is taken as it is spelled. -/
def removeLabel (now : Instant) (id label : String) (s : Store) : Outcome Bead :=
  match s.get id with
  | .error f => (.error f, s)
  | .ok b =>
      if label ∈ b.labels then
        let b' := unlabelled now label b
        (.ok b', s.put b')
      else (.error (.labelAbsent id label), s)

/-! ## Dependencies -/

/-- Puts an edge between two beads.  A pair of beads has one edge in each direction at
most, and blocking edges never close a cycle. -/
def addDependency (now : Instant) (dependent prerequisite : String) (kind : Dependency.Kind)
    (s : Store) : Outcome Dependency :=
  if dependent = prerequisite then (.error .selfDependency, s)
  else
    match s.get dependent with
    | .error f => (.error f, s)
    | .ok _ =>
        match s.get prerequisite with
        | .error f => (.error f, s)
        | .ok _ =>
            if s.dependencies.any (·.joins dependent prerequisite) then
              (.error (.dependencyPresent dependent prerequisite), s)
            else if kind = .blocks && Graph.reaches s.dependencies prerequisite dependent then
              (.error (.dependencyCycle dependent prerequisite), s)
            else
              let d : Dependency := ⟨dependent, prerequisite, kind, now⟩
              (.ok d, { s with dependencies := s.dependencies ++ [d] })

/-- Removes the edge between two beads. -/
def removeDependency (dependent prerequisite : String) (s : Store) : Outcome Dependency :=
  match s.dependencies.find? (·.joins dependent prerequisite) with
  | none => (.error (.dependencyAbsent dependent prerequisite), s)
  | some d =>
      (.ok d,
       { s with
         dependencies := s.dependencies.eraseP (·.joins dependent prerequisite) })

/-! ## Comments -/

/-- Comments on a bead. -/
def addComment (now : Instant) (id author text : String) (s : Store) : Outcome Comment :=
  match checkComment text with
  | .error f => (.error f, s)
  | .ok kept =>
      match s.get id with
      | .error f => (.error f, s)
      | .ok _ =>
          let c : Comment := ⟨s.commented + 1, id, author, kept, now⟩
          (.ok c, { s with commented := s.commented + 1, comments := s.comments ++ [c] })

end Store

end IssueTracker
