/-
  IssueTracker/Service/Action.lean --- what a request asks for.

  A request is read as an action before anything else is looked at.  What cannot be read is
  rejected: first an unknown place or method, then a name in the path, then the query, then
  the body.
-/
import IssueTracker.Bead.Request
import IssueTracker.Http.Form
import IssueTracker.Http.MediaType
import IssueTracker.Service.Answer
import IssueTracker.Service.Route
import IssueTracker.Store.Change
import IssueTracker.Topic.Filter

set_option autoImplicit false

namespace IssueTracker

namespace Service

open Http (Form Request)

/-! ## Who asks -/

/-- What the headers tell of a client. -/
structure Caller where
  /-- Under what name it acts. -/
  actor : String
  /-- How it names the request. -/
  correlationId : String
  /-- The token that it shows. -/
  token : Option String
  deriving DecidableEq, Repr, Inhabited

/-- What stands before the token in the header. -/
def tokenMark : List Char := "Bearer ".toList

/-- The token in the header of a request. -/
def token? (r : Request) : Option String :=
  match r.header? "authorization" with
  | some value =>
      if tokenMark.isPrefixOf value.toList then
        some (String.ofList (value.toList.drop tokenMark.length))
      else none
  | none => none

/-- The name of a client that tells none. -/
def unnamedActor : String := "anonymous"

/-- Who sends a request; `fresh` names it if the client does not. -/
def callerOf (fresh : String) (r : Request) : Caller :=
  { actor := (r.headerText? "x-beads-actor").getD unnamedActor
    correlationId := (r.headerText? "x-request-id").getD fresh
    token := token? r }

/-- The sequence number after which a client wants to go on with the stream. -/
def lastSeen? (r : Request) : Option Nat := do
  let value ← r.header? "last-event-id"
  Text.unsigned? Text.maxWord64 (Text.trim value.toList)

/-! ## Actions -/

/-- What a request asks for. -/
inductive Action where
  | health
  | list (query : Query)
  | ready
  | detail (id : String)
  | edges (id : String)
  | comments (id : String)
  | change (operation : Store.Operation)
  /-- A page of the ledger. -/
  | records (after : Int) (filter : Topic.Filter) (limit : Nat)
  | statistics
  /-- The stream of events; its token may stand in the query. -/
  | follow (filter : Topic.Filter) (token : Option String) (lastSeen : Option Nat)
  deriving DecidableEq, Repr, Inhabited

/-- The records on a page, if the client does not say how many. -/
def usualPage : Nat := 100

/-- The most records on a page. -/
def greatestPage : Nat := 1000

/-- The records on a page: one at least, and no more than the most. -/
def pageSize (asked : Option Nat) : Nat := max 1 (min (asked.getD usualPage) greatestPage)

/-- The filter that a query names. -/
def filterOf (raw : Option String) : Topic.Filter := raw.elim .everything .parse

/-! ## Reading queries -/

/-- Reads which beads to list. -/
def readListing? (form : Form) : Option Action := do
  let status ← form.optional? "status" fun s => Status.table.lookup s
  let label ← form.optional? "label" some
  let assignee ← form.optional? "assignee" some
  return .list ⟨status, label, assignee⟩

/-- Reads which page of the ledger to show. -/
def readPage? (form : Form) : Option Action := do
  let after ← form.optional? "after" fun s => Text.signed? s.toList
  let topics ← form.optional? "topics" some
  let limit ← form.optional? "limit" fun s => Text.unsigned? Text.maxWord64 s.toList
  return .records (after.getD 0) (filterOf topics) (pageSize limit)

/-- Reads which events to follow. -/
def readFollowing? (r : Request) (form : Form) : Option Action := do
  let topics ← form.optional? "topics" some
  let token ← form.optional? "token" some
  return .follow (filterOf topics) token (lastSeen? r)

/-- The action of a query, or the rejection of one that does not read. -/
def orBadQuery (action : Option Action) : Except Answer Action :=
  match action with
  | some a => .ok a
  | none => .error (.rejected 400)

/-! ## Reading bodies -/

/-- The status with which a body is rejected. -/
def bodyStatus : Json.Fault → Nat
  | .malformed => 400
  | .mismatch => 422

/-- The most bytes of a body. -/
def greatestBody : Nat := 2097152

/-- Reads the body of a request.  Its type has to be JSON, and it must not be too long; what follows
the value does not matter. -/
def readBody {α : Type} (read : Json.Reader α) (r : Request) : Except Answer α :=
  match r.header? "content-type" with
  | none => .error (.rejected 415)
  | some type =>
      if !Http.MediaType.isJson type then .error (.rejected 415)
      else if greatestBody < r.body.utf8ByteSize then .error (.rejected 413)
      else
        match Json.readFront read r.body with
        | .ok a => .ok a
        | .error f => .error (.rejected (bodyStatus f))

/-- The action of a body. -/
def fromBody {α : Type} (read : Json.Reader α) (r : Request) (operation : α → Store.Operation) :
    Except Answer Action :=
  match readBody read r with
  | .ok a => .ok (.change (operation a))
  | .error a => .error a

/-- The reason in the body of a request to close; none if the body does not read. -/
def closeReason (r : Request) : Option String :=
  match readBody readCloseReason r with
  | .ok reason => reason
  | .error _ => none

/-! ## Reading requests -/

/-- The method by which a request is answered: a request for the head alone is answered as one
for all. -/
def Place.method (r : Request) : Http.Method :=
  if r.method = .head then .get else r.method

/-- The action at a place, with the names in the path. -/
def Place.action (caller : Caller) (r : Request) (p : Place) (names : List String) :
    Except Answer Action :=
  match p, Place.method r, names with
  | .health, .get, _ => .ok .health
  | .beads, .get, _ => orBadQuery (readListing? (Form.parse r.query))
  | .beads, .post, _ => fromBody Draft.read r .create
  | .ready, .get, _ => .ok .ready
  | .bead, .get, [id] => .ok (.detail id)
  | .bead, .patch, [id] => fromBody Patch.read r (.update id)
  | .bead, .delete, [id] => .ok (.change (.delete id))
  | .close, .post, [id] => .ok (.change (.close id (closeReason r)))
  | .reopen, .post, [id] => .ok (.change (.reopen id))
  | .labels, .post, [id] => fromBody readLabel r (.addLabel id)
  | .label, .delete, [id, name] => .ok (.change (.removeLabel id name))
  | .dependencies, .get, [id] => .ok (.edges id)
  | .dependencies, .post, [id] =>
      fromBody DependencyDraft.read r fun d => .addDependency id d.dependsOn d.kind
  | .dependency, .delete, [id, name] => .ok (.change (.removeDependency id name))
  | .comments, .get, [id] => .ok (.comments id)
  | .comments, .post, [id] => fromBody readCommentText r (.addComment id caller.actor)
  | .events, .get, _ => orBadQuery (readPage? (Form.parse r.query))
  | .statistics, .get, _ => .ok .statistics
  | .stream, .get, _ => orBadQuery (readFollowing? r (Form.parse r.query))
  | p, _, _ => .error (.noMethod p.allowed)

/-- What a request asks for, or how it is rejected. -/
def Action.ofRequest (caller : Caller) (r : Request) : Except Answer Action :=
  match Place.ofPath? r.path with
  | none => .error .noRoute
  | some (p, segments) =>
      if r.method ∈ p.methods then
        match decodeSegments? segments with
        | none => .error (.rejected 400)
        | some names => p.action caller r names
      else .error (.noMethod p.allowed)

end Service

end IssueTracker
