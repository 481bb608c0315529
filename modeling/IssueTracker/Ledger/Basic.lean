/-
  IssueTracker/Ledger/Basic.lean --- the record of what was dispatched.

  The ledger numbers its records from one, without gaps and apart from the sequence
  numbers of the hub.  A record keeps the payload as a JSON value, so an entry
  whose payload is not JSON is refused.  A page of records is found by halving.
-/
import IssueTracker.Bead.Basic
import IssueTracker.Json.Text
import IssueTracker.Topic.Filter

set_option autoImplicit false

namespace IssueTracker

namespace Ledger

/-- One event, as it is offered to the ledger. -/
structure Entry where
  topic : String
  correlationId : String
  actor : String
  /-- The payload as JSON text. -/
  payload : String
  deriving DecidableEq, Repr, Inhabited

/-- One event, as it is kept. -/
structure Record where
  id : Nat
  topic : String
  correlationId : String
  actor : String
  payload : Json
  createdAt : Instant
  deriving DecidableEq, Inhabited

/-- A record as JSON. -/
def Record.toJson (r : Record) : Json :=
  .object [("id", .int r.id), ("topic", .text r.topic), ("correlation_id", .text r.correlationId),
    ("actor", .text r.actor), ("payload", r.payload), ("created_at", r.createdAt.toJson)]

end Ledger

/-- Records in the order of their numbers. -/
structure Ledger where
  records : Array Ledger.Record
  deriving Inhabited

namespace Ledger

/-- A ledger without records. -/
def empty : Ledger := ⟨#[]⟩

/-- The number of the latest record; zero if there is none. -/
def latest (l : Ledger) : Nat := l.records.back?.elim 0 (·.id)

/-- Records an entry and gives its number. -/
def append (now : Instant) (e : Entry) (l : Ledger) : Except Json.Fault (Nat × Ledger) :=
  match Json.ofText e.payload with
  | .error f => .error f
  | .ok payload =>
      let id := l.latest + 1
      .ok (id, ⟨l.records.push ⟨id, e.topic, e.correlationId, e.actor, payload, now⟩⟩)

/-- The first place in `lo` to `hi` whose record has a number above `after`; `hi` if
there is none.  The numbers ascend. -/
def searchAfter (records : Array Record) (after : Int) (lo hi : Nat) (h : hi ≤ records.size) :
    Nat :=
  if hlt : lo < hi then
    have hmid : (lo + hi) / 2 < records.size := by omega
    if records[(lo + hi) / 2].id ≤ after then
      searchAfter records after ((lo + hi) / 2 + 1) hi h
    else searchAfter records after lo ((lo + hi) / 2) (by omega)
  else lo
termination_by hi - lo

/-- The place of the first record with a number above `after`. -/
def firstAfter (after : Int) (l : Ledger) : Nat :=
  searchAfter l.records after 0 l.records.size (Nat.le_refl _)

/-- The records with a number above `after` whose topic the filter passes, the oldest first and at
most `limit` of them. -/
def query (after : Int) (filter : Topic.Filter) (limit : Nat) (l : Ledger) : List Record :=
  ((l.records.toList.drop (l.firstAfter after)).filter (filter.passes ·.topic)).take limit

end Ledger

end IssueTracker
