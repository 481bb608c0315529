/-
  IssueTracker/Settings/Basic.lean --- how the tracker is set up.
-/
import IssueTracker.Hub.Basic

set_option autoImplicit false

namespace IssueTracker

/-- The settings of the tracker. -/
structure Settings where
  host : String := "0.0.0.0"
  port : Nat := 8080
  /-- The token that clients have to show; none if it is empty. -/
  userToken : String := ""
  /-- Where the durable ledger is; it is kept in memory if there is none. -/
  databaseUrl : Option String := none
  /-- Where the message bus is; nothing is published if there is none. -/
  busUrl : Option String := none
  hub : Hub.Config := {}
  /-- Seconds between keepalive frames. -/
  keepaliveSecs : Nat := 15
  /-- Seconds for which the ledger and the bus are waited for. -/
  sinkTimeoutSecs : Nat := 5
  deriving DecidableEq, Repr, Inhabited

namespace Settings

/-- Do clients have to show a token? -/
def authEnabled (s : Settings) : Bool := s.userToken != ""

/-- The seconds between keepalive frames that are kept to; one at least. -/
def keepaliveInterval (s : Settings) : Nat := max s.keepaliveSecs 1

/-- The seconds after which a sink is given up; one at least. -/
def sinkTimeout (s : Settings) : Nat := max s.sinkTimeoutSecs 1

/-- The greatest port. -/
def greatestPort : Nat := 65535

/-! ## JSON -/

/-- The settings as JSON. -/
def toJson (s : Settings) : Json :=
  .object
    [("host", .text s.host),
     ("port", .int s.port),
     ("user_token", .text s.userToken),
     ("database_url", Json.textOrNull s.databaseUrl),
     ("bus_url", Json.textOrNull s.busUrl),
     ("hub", .object
       [("ring_capacity", .int s.hub.ringCapacity),
        ("subscriber_capacity", .int s.hub.subscriberCapacity)]),
     ("stream", .object [("keepalive_secs", .int s.keepaliveSecs)]),
     ("dispatch", .object [("sink_timeout_secs", .int s.sinkTimeoutSecs)])]

/-- Reads a number of seconds or events. -/
def readCount : Json.Reader Nat := Json.Doc.asNat Text.maxWord64

/-- Reads the sizes of the hub. -/
def readHub : Json.Reader Hub.Config := fun d => do
  let r ← d.record
    [.withDefault "ring_capacity" readCount, .withDefault "subscriber_capacity" readCount]
  return {
    ringCapacity := ← r.getD "ring_capacity" readCount 1000
    subscriberCapacity := ← r.getD "subscriber_capacity" readCount 64 }

/-- Reads a record of one number. -/
def readSingle (name : String) (default : Nat) : Json.Reader Nat := fun d => do
  let r ← d.record [.withDefault name readCount]
  r.getD name readCount default

/-- Reads the settings of the stream. -/
def readStream : Json.Reader Nat := readSingle "keepalive_secs" 15

/-- Reads the settings of the sinks. -/
def readDispatch : Json.Reader Nat := readSingle "sink_timeout_secs" 5

open Json (Field) in
/-- The fields of the settings; each has a default. -/
def fields : List Field :=
  [.withDefault "host" Json.Doc.asText,
   .withDefault "port" (Json.Doc.asNat greatestPort),
   .withDefault "user_token" Json.Doc.asText,
   .withDefault "database_url" (Json.Doc.asOption Json.Doc.asText),
   .withDefault "bus_url" (Json.Doc.asOption Json.Doc.asText),
   .withDefault "hub" readHub,
   .withDefault "stream" readStream,
   .withDefault "dispatch" readDispatch]

/-- Reads settings. -/
def read : Json.Reader Settings := fun d => do
  let r ← d.record fields
  return {
    host := ← r.getD "host" Json.Doc.asText "0.0.0.0"
    port := ← r.getD "port" (Json.Doc.asNat greatestPort) 8080
    userToken := ← r.getD "user_token" Json.Doc.asText ""
    databaseUrl := ← r.getD "database_url" (Json.Doc.asOption Json.Doc.asText) none
    busUrl := ← r.getD "bus_url" (Json.Doc.asOption Json.Doc.asText) none
    hub := ← r.getD "hub" readHub {}
    keepaliveSecs := ← r.getD "stream" readStream 15
    sinkTimeoutSecs := ← r.getD "dispatch" readDispatch 5 }

end Settings

end IssueTracker
