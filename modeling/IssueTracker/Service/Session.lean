/-
  IssueTracker/Service/Session.lean --- the service with its open streams and its timers.

  Time passes only when it is told to, and while a sink is waited for.  A stream is read on
  demand: it gives the events that there are, and then a keepalive if one is due.
-/
import IssueTracker.Service.Server

set_option autoImplicit false

namespace IssueTracker

namespace Session

/-- A stream that is open. -/
structure Stream where
  /-- Streams are numbered from one. -/
  number : Nat
  connection : Connection
  timer : Timer
  deriving Inhabited

end Session

/-- The service, its streams and the time. -/
structure Session where
  server : Server
  /-- The open streams in the order of their numbers. -/
  streams : List Session.Stream := []
  /-- How many streams were opened. -/
  opened : Nat := 0
  /-- Milliseconds since the start. -/
  elapsed : Nat := 0
  deriving Inhabited

namespace Session

/-! ## Reading streams -/

/-- Reads a stream: all its events, and then a keepalive if one is due. -/
def Stream.read (now : Nat) (hub : Hub) (s : Stream) : List Frame × Stream × Hub :=
  let (events, connection, hub) := s.connection.takeAll hub
  let frames := events.map Event.frame
  if s.timer.isDue now then
    (frames ++ connection.keepalive?.toList, { s with connection, timer := s.timer.fired now }, hub)
  else (frames, { s with connection }, hub)

/-- Reads streams one after the other. -/
def readStreams (now : Nat) : Hub → List Stream → List (Nat × List Frame) × List Stream × Hub
  | hub, [] => ([], [], hub)
  | hub, s :: rest =>
      let (frames, s, hub) := s.read now hub
      let (others, rest, hub) := readStreams now hub rest
      ((s.number, frames) :: others, s :: rest, hub)

/-- Reads all open streams. -/
def readAll (s : Session) : List (Nat × List Frame) × Session :=
  let (frames, streams, hub) := readStreams s.elapsed s.server.hub s.streams
  (frames, { s with streams, server := { s.server with hub } })

/-- Reads the stream of a number; there is nothing to read if it is not open. -/
def read (number : Nat) (s : Session) : List Frame × Session :=
  let (frames, streams, hub) :=
    readStreams s.elapsed s.server.hub (s.streams.filter (·.number == number))
  let put (t : Stream) : Stream := (streams.find? (·.number == t.number)).getD t
  (frames.flatMap (·.2), { s with streams := s.streams.map put, server := { s.server with hub } })

/-! ## Time -/

/-- Lets time pass.  The streams are read before and after. -/
def advance (ms : Nat) (s : Session) :
    List (Nat × List Frame) × List (Nat × List Frame) × Session :=
  let (before, s) := s.readAll
  let (after, s) := { s with elapsed := s.elapsed + ms }.readAll
  (before, after, s)

/-! ## Requests -/

/-- The response to a request, and the number of the stream if it opened one. -/
structure Reply where
  response : Server.Response
  number : Option Nat := none

/-- Handles a request.  A stream is numbered, and stays open unless the request was for the head
alone. -/
def request (now : Instant) (fresh : String) (r : Http.Request) (s : Session) : Reply × Session :=
  let h := s.server.handle now fresh r
  let s := { s with server := h.server, elapsed := s.elapsed + h.waited * 1000 }
  match h.response with
  | .answer _ => (⟨h.response, none⟩, s)
  | .stream c =>
      let number := s.opened + 1
      let timer := Timer.start (s.server.settings.keepaliveInterval * 1000) s.elapsed
      let streams := if r.method = .head then s.streams else s.streams ++ [⟨number, c, timer⟩]
      (⟨h.response, some number⟩, { s with opened := number, streams })

/-- Closes the stream of a number. -/
def disconnect (number : Nat) (s : Session) : Session :=
  let hub := (s.streams.filter (·.number == number)).foldl (fun hub t => t.connection.close hub)
    s.server.hub
  { s with
    streams := s.streams.filter (·.number != number)
    server := { s.server with hub } }

/-- Closes all streams. -/
def disconnectAll (s : Session) : Session :=
  { s with
    streams := []
    server := { s.server with
      hub := s.streams.foldl (fun hub t => t.connection.close hub) s.server.hub } }

/-- Broadcasts an event past the store. -/
def broadcast (topic data : String) (s : Session) : Nat × Session :=
  let (n, hub) := s.server.hub.broadcast topic data
  (n, { s with server := { s.server with hub } })

/-- What the bus took since somebody asked last. -/
def collect (s : Session) : List Bus.Message × Session :=
  let (taken, bus) := s.server.bus.collect
  (taken, { s with server := { s.server with bus } })

end Session

end IssueTracker
