/-
  IssueTracker/Service/Server.lean --- the service.

  The server holds the store, the ledger, the bus and the hub.  A request is read as an
  action.  Unless the action is open to everybody, the caller has to be let in; then the
  action is done.  What an action changes in the store is handed to the ledger, the bus and
  the hub, after it was done and only if it was.
-/
import IssueTracker.Dispatch.Basic
import IssueTracker.Service.Access
import IssueTracker.Service.Action
import IssueTracker.Service.Connection

set_option autoImplicit false

namespace IssueTracker

/-- The state of the service. -/
structure Server where
  settings : Settings
  store : Store
  ledger : LedgerSink
  bus : Bus
  hub : Hub
  deriving Inhabited

namespace Server

open Service (Action Caller)

/-! ## Starting -/

/-- A server with an empty store and the given sinks. -/
def ofParts (settings : Settings) (ledger : LedgerSink) (bus : Bus) : Server :=
  { settings, store := .empty, ledger, bus, hub := .ofConfig settings.hub }

/-- Is there something to connect to? -/
def isNamed (address : Option String) : Bool := address.any (· != "")

/-- A server with the sinks that the settings name.  Nothing outside can be reached: a durable
ledger fails to connect, and a bus refuses every event. -/
def connect (settings : Settings) : Except Failure Server :=
  if isNamed settings.databaseUrl then .error (.ledger "error connecting to server")
  else
    let availability := if isNamed settings.busUrl then .failing else .accepting
    .ok (ofParts settings {} { availability })

/-! ## Answering -/

/-- What a request gets. -/
inductive Response where
  | answer (a : Answer)
  /-- A stream of events. -/
  | stream (c : Connection)
  deriving Inhabited

/-- What comes of a request. -/
structure Handled where
  response : Response
  server : Server
  /-- The seconds that were waited for sinks. -/
  waited : Nat := 0

/-- The answer, and nothing else. -/
def answered (a : Answer) (s : Server) : Handled := ⟨.answer a, s, 0⟩

/-- The answer to a look into the store. -/
def shown {α : Type} (write : α → Json) (r : Except Store.Fault α) (s : Server) : Handled :=
  match r with
  | .ok a => s.answered (.ok (write a))
  | .error f => s.answered (.ofFailure f.failure)

/-- Hands a change to the ledger, the bus and the hub; gives the seconds that passed. -/
def publish (now : Instant) (caller : Caller) (change : Store.Change) (s : Server) :
    Nat × Server :=
  let (waited, state) :=
    Dispatch.run (LedgerSink.sink now) Bus.sink s.settings.sinkTimeout
      ⟨change.topic, caller.correlationId, caller.actor, some change.payload⟩
      ⟨s.ledger, s.bus, s.hub⟩
  (waited, { s with ledger := state.ledger, bus := state.bus, hub := state.hub })

/-- Does an operation on the store, and publishes what it changed. -/
def change (now : Instant) (caller : Caller) (op : Store.Operation) (s : Server) : Handled :=
  match s.store.perform now op with
  | (.error f, store) => { s with store }.answered (.ofFailure f.failure)
  | (.ok change, store) =>
      let (waited, server) := { s with store }.publish now caller change
      ⟨.answer (.ok change.answer), server, waited⟩

/-- A page of the ledger with the cursor for the next page: the number of the last record, or the
cursor of this page if it is empty. -/
def pageJson (after : Int) (records : List Ledger.Record) : Json :=
  .object
    [("events", .list (records.map Ledger.Record.toJson)),
     ("next_cursor", .int (records.getLast?.elim after fun r => (r.id : Int)))]

/-- Shows a page of the ledger. -/
def records (after : Int) (filter : Topic.Filter) (limit : Nat) (s : Server) : Handled :=
  match s.ledger.query after filter limit with
  | .ok rs => s.answered (.ok (pageJson after rs))
  | .error message => s.answered (.internal message)

/-- Opens a stream. -/
def follow (filter : Topic.Filter) (lastSeen : Option Nat) (s : Server) : Handled :=
  let (c, hub) := Connection.open filter lastSeen s.hub
  ⟨.stream c, { s with hub }, 0⟩

/-- Does an action for a caller that was let in. -/
def act (now : Instant) (caller : Caller) (s : Server) : Action → Handled
  | .health => s.answered (.ok (.object [("status", .text "ok")]))
  | .list query => s.answered (.ok (.list ((s.store.list query).map Bead.toJson)))
  | .ready => s.answered (.ok (.list (s.store.ready.map Bead.toJson)))
  | .detail id => s.shown Store.Detail.toJson (s.store.detail id)
  | .edges id => s.shown Store.Edges.toJson (s.store.edges id)
  | .comments id =>
      s.shown (fun cs => .list (cs.map Comment.toJson)) (s.store.commentList id)
  | .change op => s.change now caller op
  | .records after filter limit => s.records after filter limit
  | .statistics => s.answered (.ok s.hub.statistics)
  | .follow filter _ lastSeen => s.follow filter lastSeen

/-- May the caller have the action done?  Everybody may ask whether the service is there; the
stream also takes a token in its query. -/
def admits (settings : Settings) (caller : Caller) : Action → Bool
  | .health => true
  | .follow _ token _ =>
      Access.isGranted settings caller.token || token.any (Access.tokenOpens settings)
  | _ => Access.isGranted settings caller.token

/-- What is left of a response to a request for the head alone.  A stream is closed at once. -/
def headOf (h : Handled) : Handled :=
  match h.response with
  | .answer a => { h with response := .answer a.withoutBody }
  | .stream c => { h with server := { h.server with hub := c.close h.server.hub } }

/-- Handles the reading of a request. -/
def handleAction (now : Instant) (caller : Caller) (read : Except Answer Action) (s : Server) :
    Handled :=
  match read with
  | .error a => s.answered a
  | .ok action =>
      if admits s.settings caller action then s.act now caller action
      else s.answered .unauthorized

/-- Handles a request; `fresh` names it if the client does not. -/
def handle (now : Instant) (fresh : String) (r : Http.Request) (s : Server) : Handled :=
  let caller := Service.callerOf fresh r
  let h := s.handleAction now caller (Action.ofRequest caller r)
  if r.method = .head then headOf h else h

end Server

end IssueTracker
