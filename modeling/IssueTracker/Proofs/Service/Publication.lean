/-
  IssueTracker/Proofs/Service/Publication.lean --- what is committed is published, once.

  A request either touches nothing that is kept, or it has an operation done and hands what was
  committed to the ledger, the bus and the hub (`receive_cases`).  Which of the two it is, and what
  it changes, follows from the settings, the store and the request alone (`Arrival.change?`), so the
  changes of a run are known without its sinks (`changes`).  Over a run the three tell the same
  story: `Told` says that the bus and the hub have the same events, each once and in their order,
  and `Recorded` that these are the changes of the run and that the ledger has a record of each.
-/
import IssueTracker.Proofs.Http.Header
import IssueTracker.Proofs.Hub.History
import IssueTracker.Proofs.Service.Asking
import IssueTracker.Proofs.Store.Contents

set_option autoImplicit false

namespace IssueTracker

namespace Server

open Service (Action Asks Caller callerOf mutationTopic?)
open Store (Change Commits Effect Operation)

variable {s s' : Server} {now : Instant} {caller : Caller} {action : Action} {op : Operation}
  {c : Change}

/-! ## Requests -/

/-- A request, the reading of the clock when it comes, and a name for it. -/
structure Arrival where
  now : Instant
  /-- Names the request if the client does not. -/
  fresh : String
  request : Http.Request
  deriving DecidableEq, Repr, Inhabited

/-- Who sends the request. -/
def Arrival.sender (a : Arrival) : Caller := callerOf a.fresh a.request

/-- What comes of a request. -/
def receive (s : Server) (a : Arrival) : Handled := s.handle a.now a.fresh a.request

/-- The server after requests. -/
def serve (s : Server) : List Arrival → Server
  | [] => s
  | a :: rest => (s.receive a).server.serve rest

/-- The status of a response. -/
def Response.status : Response → Nat
  | .answer a => a.status
  | .stream _ => streamHead.status

/-- Does the response tell of success? -/
def Response.isSuccess (r : Response) : Bool := 200 ≤ r.status && r.status < 300

/-- Is the request on a route that changes the store, and answered with success? -/
def commits (s : Server) (a : Arrival) : Bool :=
  (mutationTopic? a.request).isSome && (s.receive a).response.isSuccess

/-- How many requests of a run are. -/
def commitCount (s : Server) : List Arrival → Nat
  | [] => 0
  | a :: rest => (s.commits a).toNat + (s.receive a).server.commitCount rest

theorem serve_append (s : Server) (first second : List Arrival) :
    s.serve (first ++ second) = (s.serve first).serve second := by
  induction first generalizing s with
  | nil => rfl
  | cons a first ih => exact ih _

/-! ## One request -/

/-- Nothing that is kept has changed; subscribers may have come and gone. -/
structure Untouched (s s' : Server) : Prop where
  settings : s'.settings = s.settings
  store : s'.store = s.store
  ledger : s'.ledger = s.ledger
  bus : s'.bus = s.bus
  sequence : s'.hub.sequence = s.hub.sequence
  history : s'.hub.history = s.hub.history

theorem Untouched.of_eq (h : s' = s) : Untouched s s' := by
  subst h
  exact ⟨rfl, rfl, rfl, rfl, rfl, rfl⟩

theorem Untouched.refl (s : Server) : Untouched s s := .of_eq rfl

/-- A request of a caller has the operation done and its change published. -/
structure Done (a : Arrival) (s : Server) (op : Operation) (c : Change) (s' : Server) : Prop where
  asks : Asks a.sender.actor a.request op
  route : mutationTopic? a.request = some op.topic
  perform : s.store.perform a.now op = (.ok c, s'.store)
  publish : s' = ({ s with store := s'.store }.publish a.now a.sender c).2

theorem shown_untouched {α : Type} (write : α → Json) (r : Except Store.Fault α) :
    Untouched s (s.shown write r).server := by
  cases r <;> exact .refl s

theorem act_untouched (hlook : ∀ op, action ≠ .change op) :
    Untouched s (s.act now caller action).server := by
  cases action with
  | health => exact .refl s
  | list query => exact .refl s
  | ready => exact .refl s
  | detail id => exact shown_untouched _ _
  | edges id => exact shown_untouched _ _
  | comments id => exact shown_untouched _ _
  | change op => exact absurd rfl (hlook op)
  | records after filter limit =>
      simp only [act, records]
      split <;> exact .refl s
  | statistics => exact .refl s
  | follow filter token lastSeen => exact ⟨rfl, rfl, rfl, rfl, rfl, rfl⟩

/-- To leave out the body of an answer, or to close a stream, touches nothing that is kept. -/
theorem headOf_untouched {h : Handled} (hs : Untouched s h.server) :
    Untouched s (headOf h).server := by
  unfold headOf
  split
  · exact hs
  · exact ⟨hs.settings, hs.store, hs.ledger, hs.bus, hs.sequence, hs.history⟩

theorem le_status_of_fault (f : Store.Fault) : 400 ≤ (Answer.ofFailure f.failure).status := by
  cases f <;> exact Nat.le_of_ble_eq_true rfl

theorem isSuccess_answer {a : Answer} (h : 400 ≤ a.status) :
    (Response.answer a).isSuccess = false := by
  have hstatus : ¬ a.status < 300 := by omega
  simp [Response.isSuccess, Response.status, hstatus]

/-- An operation is refused, or it is done and published. -/
theorem change_cases (now : Instant) (caller : Caller) (op : Operation) (s : Server) :
    (∃ f, s.store.perform now op = (.error f, s.store) ∧ (s.change now caller op).server = s ∧
        (s.change now caller op).response.isSuccess = false) ∨
      ∃ c, s.store.perform now op = (.ok c, (s.change now caller op).server.store) ∧
        (s.change now caller op).server =
          ({ s with store := (s.change now caller op).server.store }.publish now caller c).2 ∧
        (s.change now caller op).response.isSuccess = true := by
  unfold change
  rcases s.store.perform_cases now op with ⟨f, hperform⟩ | ⟨c, store, hperform, -⟩
  · rw [hperform]
    exact Or.inl ⟨f, rfl, rfl, isSuccess_answer (le_status_of_fault f)⟩
  · rw [hperform]
    exact Or.inr ⟨c, rfl, rfl, rfl⟩

theorem isSuccess_headOf (h : Handled) :
    (headOf h).response.isSuccess = h.response.isSuccess := by
  unfold headOf
  split
  · next a ha =>
      rw [ha]
      rfl
  · rfl

theorem method_ne_head {r : Http.Request} {topic : String} (h : mutationTopic? r = some topic) :
    r.method ≠ .head := by
  intro hhead
  obtain ⟨p, -, hroute⟩ := Option.bind_eq_some_iff.1 h
  have hget : Service.Place.method r = .get := if_pos hhead
  rw [Service.lookup_of_get hget p.1] at hroute
  cases hroute

theorem handleAction_of_admits (h : admits s.settings caller action = true) :
    s.handleAction now caller (.ok action) = s.act now caller action :=
  if_pos h

theorem handleAction_of_not_admits (h : admits s.settings caller action = false) :
    s.handleAction now caller (.ok action) = s.answered .unauthorized :=
  if_neg (by simp [h])

/-- A look at something touches nothing that is kept, whoever asks. -/
theorem handleAction_untouched (hlook : ∀ op, action ≠ .change op) :
    Untouched s (s.handleAction now caller (.ok action)).server := by
  cases hadmits : admits s.settings caller action with
  | true =>
      rw [handleAction_of_admits hadmits]
      exact act_untouched hlook
  | false =>
      rw [handleAction_of_not_admits hadmits]
      exact .refl s

/-- A request is handled as it is read; of one for the head alone only the head is sent. -/
theorem receive_eq (s : Server) (a : Arrival) :
    s.receive a =
      if a.request.method = .head then
        headOf (s.handleAction a.now a.sender (Action.ofRequest a.sender a.request))
      else s.handleAction a.now a.sender (Action.ofRequest a.sender a.request) := rfl

/-- What a request changes, and what the store is then.  The settings, the store and the request
decide it; no sink is asked, and not the hub. -/
def Arrival.change? (settings : Settings) (store : Store) (a : Arrival) :
    Option (Change × Store) :=
  match Action.ofRequest a.sender a.request with
  | .ok (.change op) =>
      if Access.isGranted settings a.sender.token then
        match store.perform a.now op with
        | (.ok c, after) => some (c, after)
        | (.error _, _) => none
      else none
  | _ => none

/-- A request that changes nothing touches nothing that is kept; one that changes something commits
it, and its operation is done. -/
theorem receive_change? (s : Server) (a : Arrival) :
    (a.change? s.settings s.store = none ∧ s.commits a = false ∧
        Untouched s (s.receive a).server) ∨
      ∃ op c, a.change? s.settings s.store = some (c, (s.receive a).server.store) ∧
        s.commits a = true ∧ Done a s op c (s.receive a).server := by
  have hreads := Service.reads_ofRequest a.sender a.request
  have hreceive := s.receive_eq a
  unfold commits Arrival.change?
  generalize Action.ofRequest a.sender a.request = read at hreads hreceive ⊢
  cases hreads with
  | @refused answer hstatus =>
      have hfailed : (s.answered answer).response.isSuccess = false := isSuccess_answer hstatus
      refine Or.inl ⟨rfl, ?_, ?_⟩
      · rw [hreceive, Bool.and_eq_false_iff]
        split
        · exact Or.inr ((isSuccess_headOf _).trans hfailed)
        · exact Or.inr hfailed
      · rw [hreceive]
        split
        · exact headOf_untouched (.refl s)
        · exact .refl s
  | @shown action hlook hroute =>
      refine Or.inl ⟨?_, ?_, ?_⟩
      · cases action with
        | change op => exact absurd rfl (hlook op)
        | _ => rfl
      · rw [hroute]
        rfl
      · rw [hreceive]
        split
        · exact headOf_untouched (handleAction_untouched hlook)
        · exact handleAction_untouched hlook
  | @asked op h hroute =>
      rw [hreceive, if_neg (method_ne_head hroute)]
      simp only [hroute, Option.isSome_some, Bool.true_and]
      cases hgranted : Access.isGranted s.settings a.sender.token with
      | false =>
          have hadmits : admits s.settings a.sender (.change op) = false := hgranted
          rw [handleAction_of_not_admits hadmits]
          exact Or.inl ⟨rfl, rfl, .refl s⟩
      | true =>
          have hadmits : admits s.settings a.sender (.change op) = true := hgranted
          rw [handleAction_of_admits hadmits, if_pos rfl]
          rcases s.change_cases a.now a.sender op with
            ⟨f, hperform, hserver, hstatus⟩ | ⟨c, hperform, hpublish, hstatus⟩
          · refine Or.inl ⟨?_, hstatus, .of_eq hserver⟩
            rw [hperform]
          · refine Or.inr ⟨op, c, ?_, hstatus, h, hroute, hperform, hpublish⟩
            rw [hperform]
            rfl

/-- A request touches nothing that is kept, or it is one that commits and its operation is done. -/
theorem receive_cases (s : Server) (a : Arrival) :
    (s.commits a = false ∧ Untouched s (s.receive a).server) ∨
      s.commits a = true ∧ ∃ op c, Done a s op c (s.receive a).server := by
  rcases s.receive_change? a with ⟨-, hunchanged⟩ | ⟨op, c, -, hcommits, hdone⟩
  · exact Or.inl hunchanged
  · exact Or.inr ⟨hcommits, op, c, hdone⟩

/-! ## Publishing -/

/-- The ledger, the bus and the hub have one event more, all three the same.  The ledger keeps the
payload as a value, the others have its text. -/
structure Published (now : Instant) (actor correlationId topic : String) (payload : Json)
    (s s' : Server) : Prop where
  ledger : s'.ledger =
    { s.ledger with
      ledger := ⟨s.ledger.ledger.records.push
        ⟨s.ledger.ledger.latest + 1, topic, correlationId, actor, payload.sorted, now⟩⟩ }
  bus : s'.bus = { s.bus with offered := s.bus.offered.push ⟨topic, payload.render⟩ }
  hub : s'.hub = (s.hub.broadcast topic payload.render).2

/-- The availability of the bus does not matter to the others. -/
theorem bus_offer (m : Bus.Message) (b : Bus) :
    (b.offer m).2 = { b with offered := b.offered.push m } := by
  unfold Bus.offer
  cases b with
  | mk availability records offered => cases availability <;> rfl

/-- A ledger that is there takes what can be read. -/
theorem ledger_offer {state : LedgerSink} (haccepting : state.availability = .accepting)
    {payload : Json} (hfits : Json.fits Json.greatestDepth payload = true) (now : Instant)
    (topic correlationId actor : String) :
    (state.offer now ⟨topic, correlationId, actor, payload.render⟩).2 =
      { state with
        ledger := ⟨state.ledger.records.push
          ⟨state.ledger.latest + 1, topic, correlationId, actor, payload.sorted, now⟩⟩ } := by
  simp only [LedgerSink.offer, haccepting, Ledger.append, Json.ofText_render hfits]

variable {a : Arrival}

namespace Done

theorem effect (h : Done a s op c s') : Effect a.now s.store op c s'.store :=
  Store.effect_of_perform h.perform

theorem settings (h : Done a s op c s') : s'.settings = s.settings := by
  rw [h.publish]
  rfl

theorem bus (h : Done a s op c s') :
    s'.bus = { s.bus with offered := s.bus.offered.push ⟨c.topic, c.payload.render⟩ } := by
  rw [h.publish]
  exact bus_offer _ _

theorem hub (h : Done a s op c s') :
    s'.hub = (s.hub.broadcast c.topic c.payload.render).2 := by
  rw [h.publish]
  rfl

theorem published (h : Done a s op c s') (haccepting : s.ledger.availability = .accepting)
    (hfits : Json.fits Json.greatestDepth c.payload = true) :
    Published a.now a.sender.actor a.sender.correlationId c.topic c.payload s s' where
  ledger := by
    rw [h.publish]
    exact ledger_offer haccepting hfits _ _ _ _
  bus := h.bus
  hub := h.hub

end Done

/-! ## Runs -/

/-- The changes of a run, each with the request that asked for it. -/
def changes (settings : Settings) (store : Store) : List Arrival → List (Arrival × Change)
  | [] => []
  | a :: rest =>
      match a.change? settings store with
      | some (c, after) => (a, c) :: changes settings after rest
      | none => changes settings store rest

/-- There are as many changes as requests that commit. -/
theorem length_changes (s : Server) (arrivals : List Arrival) :
    (changes s.settings s.store arrivals).length = s.commitCount arrivals := by
  induction arrivals generalizing s with
  | nil => rfl
  | cons a rest ih =>
      rw [commitCount, ← ih]
      rcases s.receive_change? a with
        ⟨hchange, hcommits, huntouched⟩ | ⟨op, c, hchange, hcommits, hdone⟩
      · rw [huntouched.settings, huntouched.store]
        simp only [changes, hchange, hcommits, Bool.toNat_false, Nat.zero_add]
      · rw [hdone.settings]
        simp only [changes, hchange, hcommits, Bool.toNat_true, List.length_cons, Nat.add_comm]

theorem commented_le_receive (s : Server) (a : Arrival) :
    s.store.commented ≤ (s.receive a).server.store.commented := by
  rcases s.receive_cases a with ⟨-, h⟩ | ⟨-, op, c, h⟩
  · rw [h.store]
  · exact Store.commented_le_of_effect h.effect

theorem commented_le_serve (s : Server) (arrivals : List Arrival) :
    s.store.commented ≤ (s.serve arrivals).store.commented := by
  induction arrivals generalizing s with
  | nil => exact Nat.le_refl _
  | cons a rest ih => exact Nat.le_trans (s.commented_le_receive a) (ih _)

/-- Each request is at most one comment, so the numbers of a run have 64 bits unless it has more
requests than that. -/
theorem commented_serve_le (s : Server) (arrivals : List Arrival) :
    (s.serve arrivals).store.commented ≤ s.store.commented + arrivals.length := by
  induction arrivals generalizing s with
  | nil => exact Nat.le_refl _
  | cons a rest ih =>
      have hfirst : (s.receive a).server.store.commented ≤ s.store.commented + 1 := by
        rcases s.receive_cases a with ⟨-, h⟩ | ⟨-, op, c, h⟩
        · rw [h.store]
          exact Nat.le_add_right _ _
        · exact Store.le_commented_of_effect h.effect
      have hrest := ih (s.receive a).server
      rw [serve, List.length_cons]
      omega

/-- The events of changes. -/
def eventsOf (told : List (Arrival × Change)) : List Event :=
  told.mapIdx fun i x => ⟨i + 1, x.2.topic, x.2.payload.render⟩

/-- The records of changes. -/
def recordsOf (told : List (Arrival × Change)) : List Ledger.Record :=
  told.mapIdx fun i x =>
    ⟨i + 1, x.2.topic, x.1.sender.correlationId, x.1.sender.actor, x.2.payload.sorted, x.1.now⟩

/-- The message that the bus was offered of an event. -/
def message (e : Event) : Bus.Message := ⟨e.topic, e.data⟩

/-- After these events the hub has sent them, and the bus was offered them after what it had been
offered `before`. -/
structure Told (config : Hub.Config) (before : List Bus.Message) (events : List Event)
    (s : Server) : Prop where
  numbers : events.map (·.sequence) = List.range' 1 events.length
  sequence : s.hub.sequence = events.length
  history : s.hub.history =
    events.foldl (fun h e => h.append e) (History.ofCapacity config.ringCapacity)
  offered : s.bus.offered.toList = before ++ events.map message

/-- After these changes they were told, and a ledger that is there has recorded them. -/
structure Recorded (config : Hub.Config) (before : List Bus.Message)
    (told : List (Arrival × Change)) (s : Server) : Prop
    extends Told config before (eventsOf told) s where
  accepting : s.ledger.availability = .accepting
  records : s.ledger.ledger.records.toList = recordsOf told
  fits : ∀ x ∈ told, Json.fits Json.greatestDepth x.2.payload = true

namespace Told

variable {config : Hub.Config} {before : List Bus.Message} {events : List Event}

theorem ofParts (settings : Settings) (ledger : LedgerSink) (bus : Bus) :
    Told settings.hub bus.offered.toList [] (ofParts settings ledger bus) where
  numbers := rfl
  sequence := rfl
  history := rfl
  offered := (List.append_nil _).symm

theorem untouched (h : Told config before events s) (huntouched : Untouched s s') :
    Told config before events s' where
  numbers := h.numbers
  sequence := huntouched.sequence.trans h.sequence
  history := huntouched.history.trans h.history
  offered := huntouched.bus ▸ h.offered

/-- What is done is one event more. -/
theorem done (h : Told config before events s) (hdone : Done a s op c s') :
    Told config before (events ++ [⟨events.length + 1, c.topic, c.payload.render⟩]) s' where
  numbers := by
    rw [List.map_append, h.numbers, List.length_append, List.length_singleton,
      List.range'_concat]
    simp [Nat.add_comm]
  sequence := by
    rw [hdone.hub, List.length_append, List.length_singleton, ← h.sequence]
    rfl
  history := by
    rw [hdone.hub, List.foldl_append, List.foldl_cons, List.foldl_nil, ← h.history, ← h.sequence]
    rfl
  offered := by
    rw [hdone.bus, List.map_append, ← List.append_assoc, ← h.offered]
    simp [message]

/-- The hub retains the latest events. -/
theorem retained (h : Told config before events s) :
    s.hub.history.toList = events.rtake (max config.ringCapacity 1) := by
  rw [h.history, History.toList_foldl_append, History.toList_ofCapacity, List.nil_append]
  rfl

end Told

namespace Recorded

variable {config : Hub.Config} {before : List Bus.Message} {told : List (Arrival × Change)}
  {P : Instant → Prop}

theorem ofParts (settings : Settings) (bus : Bus) :
    Recorded settings.hub bus.offered.toList [] (ofParts settings {} bus) where
  toTold := .ofParts settings {} bus
  accepting := rfl
  records := rfl
  fits := by simp

theorem untouched (h : Recorded config before told s) (huntouched : Untouched s s') :
    Recorded config before told s' where
  toTold := h.toTold.untouched huntouched
  accepting := huntouched.ledger ▸ h.accepting
  records := huntouched.ledger ▸ h.records
  fits := h.fits

/-- The number of the latest record is the count of changes. -/
theorem latest (h : Recorded config before told s) : s.ledger.ledger.latest = told.length := by
  rw [Ledger.latest, ← Array.getLast?_toList, h.records]
  rcases List.eq_nil_or_concat told with rfl | ⟨front, x, rfl⟩
  · rfl
  · rw [List.concat_eq_append, recordsOf, List.mapIdx_concat, List.getLast?_concat,
      List.length_append]
    rfl

theorem done (h : Recorded config before told s) (hdone : Done a s op c s')
    (hfits : Json.fits Json.greatestDepth c.payload = true) :
    Recorded config before (told ++ [(a, c)]) s' where
  toTold := by
    have hnext := h.toTold.done hdone
    rw [eventsOf, List.length_mapIdx] at hnext
    rw [eventsOf, List.mapIdx_concat]
    exact hnext
  accepting := by
    rw [(hdone.published h.accepting hfits).ledger]
    exact h.accepting
  records := by
    rw [(hdone.published h.accepting hfits).ledger, Array.toList_push, h.records, h.latest,
      recordsOf, recordsOf, List.mapIdx_concat]
  fits x hx := by
    rcases List.mem_append.1 hx with hx | hx
    · exact h.fits x hx
    · rw [List.mem_singleton.1 hx]
      exact hfits

/-- A run tells its changes, and no more. -/
theorem serve (h : Recorded config before told s) (hkeeps : s.store.Keeps P)
    (arrivals : List Arrival) (hclock : ∀ a ∈ arrivals, P a.now)
    (hnumber : (s.serve arrivals).store.commented ≤ Text.maxWord64) :
    Recorded config before (told ++ changes s.settings s.store arrivals) (s.serve arrivals) ∧
      (s.serve arrivals).store.Keeps P := by
  induction arrivals generalizing s told with
  | nil => exact ⟨(List.append_nil told).symm ▸ h, hkeeps⟩
  | cons a rest ih =>
      rw [List.forall_mem_cons] at hclock
      have hfirst := Nat.le_trans ((s.receive a).server.commented_le_serve rest) hnumber
      rw [serve, changes]
      rcases s.receive_change? a with ⟨hchange, -, huntouched⟩ | ⟨op, c, hchange, -, hdone⟩
      · rw [hchange, ← huntouched.settings, ← huntouched.store]
        exact ih (h.untouched huntouched) (huntouched.store ▸ hkeeps) hclock.2 hnumber
      · obtain ⟨hc, hafter⟩ := hkeeps.effect hclock.1 hdone.effect hfirst
        have hnext := h.done hdone (Change.fits_payload hc)
        rw [hchange, ← hdone.settings, List.append_cons]
        exact ih hnext hafter hclock.2 hnumber

/-- The ledger and the hub number the changes in the same way. -/
theorem record (h : Recorded config before told s) {k : Nat} {e : Event}
    (he : (eventsOf told)[k]? = some e) :
    e.sequence = k + 1 ∧
      ∃ r, s.ledger.ledger.records[k]? = some r ∧ r.id = k + 1 ∧ r.topic = e.topic ∧
        Json.ofText e.data = .ok r.payload := by
  rw [eventsOf, List.getElem?_mapIdx, Option.map_eq_some_iff] at he
  obtain ⟨x, hx, rfl⟩ := he
  have hrecord : (recordsOf told)[k]? = _ := List.getElem?_mapIdx
  rw [hx, Option.map_some, ← h.records, Array.getElem?_toList] at hrecord
  have hfits := h.fits x (List.mem_of_getElem? hx)
  exact ⟨rfl, _, hrecord, rfl, rfl, Json.ofText_render hfits⟩

end Recorded

/-- The service starts with an empty store and a ledger in memory, and any bus.  A request on one of
the ten routes that is answered with success has done the operation that it asks for and has
told one event, under the topic of the route and with the value that the store committed.  The
actor and the name of the request are those of its headers, or `anonymous` and the name that the
service has made for it.  Every other request has left the store, the ledger, the bus and the events
of the hub as they were.  So after a run the hub, the ledger and the bus have as many events as
there were such requests, and the same ones.  Comments are numbered in 64 bits, which is enough for
every run of fewer than 2^64 requests (`commented_serve_le`). -/
theorem commits_are_published_once (settings : Settings) (bus : Bus) (arrivals : List Arrival)
    (hnumber : ((ofParts settings {} bus).serve arrivals).store.commented ≤ Text.maxWord64) :
    let start := ofParts settings {} bus
    let final := start.serve arrivals
    (∀ earlier a later, arrivals = earlier ++ a :: later →
      let s := start.serve earlier
      let s' := (s.receive a).server
      (s.commits a = true →
        ∃ op topic payload actor correlationId,
          a.request.TellsOr "x-beads-actor" "anonymous" actor ∧
          a.request.TellsOr "x-request-id" a.fresh correlationId ∧
          Asks actor a.request op ∧ mutationTopic? a.request = some topic ∧
          (∃ c, s.store.perform a.now op = (.ok c, s'.store)) ∧
          Commits s.store s'.store op payload ∧
          Published a.now actor correlationId topic payload s s') ∧
      (s.commits a = false → Untouched s s')) ∧
    final.hub.sequence = start.commitCount arrivals ∧
    final.ledger.latest = .ok (start.commitCount arrivals) ∧
    ∃ events : List Event, events.length = start.commitCount arrivals ∧
      final.hub.history.toList = events.rtake (max settings.hub.ringCapacity 1) ∧
      final.bus.offered.toList = bus.offered.toList ++ events.map message ∧
      ∀ k e, events[k]? = some e → e.sequence = k + 1 ∧
        ∃ r, final.ledger.ledger.records[k]? = some r ∧ r.id = k + 1 ∧ r.topic = e.topic ∧
          Json.ofText e.data = .ok r.payload := by
  intro start final
  have hstart : Recorded settings.hub bus.offered.toList [] start := .ofParts settings bus
  have hempty : start.store.Keeps fun _ => True := Store.Keeps.empty
  refine ⟨?_, ?_⟩
  · rintro earlier a later rfl s s'
    have hsplit : final = s'.serve later := by
      simp only [final, serve_append, serve, s', s]
    have hlater : s'.store.commented ≤ Text.maxWord64 := by
      refine Nat.le_trans (s'.commented_le_serve later) ?_
      rw [← hsplit]
      exact hnumber
    have hearlier := Nat.le_trans (s.commented_le_receive a) hlater
    obtain ⟨hrecorded, hkeeps⟩ := hstart.serve hempty earlier (fun _ _ => trivial) hearlier
    rcases s.receive_cases a with ⟨hcommits, huntouched⟩ | ⟨hcommits, op, c, hdone⟩
    · refine ⟨fun h => ?_, fun _ => huntouched⟩
      rw [hcommits] at h
      cases h
    · refine ⟨fun _ => ?_, fun h => ?_⟩
      · have hchange := (hkeeps.effect trivial hdone.effect hlater).1
        have hpublished := hdone.published hrecorded.accepting (Change.fits_payload hchange)
        rw [Store.topic_of_effect hdone.effect] at hpublished
        exact ⟨op, op.topic, c.payload, a.sender.actor, a.sender.correlationId,
          a.request.tellsOr_getD _ _, a.request.tellsOr_getD _ _, hdone.asks, hdone.route,
          ⟨c, hdone.perform⟩, .of_effect hdone.effect, hpublished⟩
      · rw [hcommits] at h
        cases h
  · obtain ⟨hrecorded, -⟩ := hstart.serve hempty arrivals (fun _ _ => trivial) hnumber
    rw [List.nil_append] at hrecorded
    have hcount := start.length_changes arrivals
    have hevents : (eventsOf (changes settings .empty arrivals)).length = _ :=
      List.length_mapIdx.trans hcount
    refine ⟨hrecorded.sequence.trans hevents, ?_, _, hevents, hrecorded.retained,
      hrecorded.offered, fun _ _ => hrecorded.record⟩
    have hlatest : final.ledger.latest = .ok final.ledger.ledger.latest := by
      simp only [LedgerSink.latest, final, hrecorded.accepting]
    rw [hlatest, hrecorded.latest, hcount]

/-- A run over the ten routes, with a look at the beads and a refused label in between, and a bus
that never answers.  The ledger has a record of each change and the hub retains the last two events.
Names in the path may be escaped; headers may have blanks around them, and count only if they are
plain text. -/
theorem each_route_is_recorded :
    let settings : Settings := { hub := ⟨2, 1⟩ }
    let bus : Bus := { availability := .stalled }
    let json := ("content-type", "application/json")
    let ann := ("X-Beads-Actor", " ann ")
    let arrivals : List Arrival :=
      [⟨⟨0, 0⟩, "a", ⟨.post, "/api/beads", [json, ann, ("X-REQUEST-ID", "r-1")],
         "\x7b\"title\":\"one\",\"priority\":1\x7d"⟩⟩,
       ⟨⟨1, 0⟩, "b", ⟨.get, "/api/beads", [ann], ""⟩⟩,
       ⟨⟨2, 0⟩, "c", ⟨.post, "/api/beads/bd-1/labels", [json], "\x7b\"label\":\"x y\"\x7d"⟩⟩,
       ⟨⟨3, 0⟩, "d", ⟨.post, "/api/beads/bd%2D1/labels", [ann, json], "\x7b\"label\":\" x \"\x7d"⟩⟩,
       ⟨⟨4, 0⟩, "e", ⟨.post, "/api/beads", [json], "\x7b\"title\":\"two\"\x7d"⟩⟩,
       ⟨⟨5, 0⟩, "f", ⟨.post, "/api/beads/bd-2/dependencies", [json, ("x-beads-actor", " ")],
         "\x7b\"depends_on\":\"bd-1\"\x7d"⟩⟩,
       ⟨⟨6, 0⟩, "g", ⟨.post, "/api/beads/bd-1/comments", [json, ann, ("x-request-id", "\t")],
         "\x7b\"text\":\"seen\"\x7d"⟩⟩,
       ⟨⟨7, 0⟩, "h", ⟨.patch, "/api/beads/bd-1", [json], "\x7b\"assignee\":\"ann\"\x7d"⟩⟩,
       ⟨⟨8, 0⟩, "i", ⟨.post, "/api/beads/bd-1/close", [json, ann], "\x7b\"reason\":\"done\"\x7d"⟩⟩,
       ⟨⟨9, 0⟩, "j", ⟨.post, "/api/beads/bd-1/reopen", [("x-beads-actor", "änn")], ""⟩⟩,
       ⟨⟨10, 0⟩, "k", ⟨.delete, "/api/beads/bd-1/labels/%78", [ann], ""⟩⟩,
       ⟨⟨11, 0⟩, "l", ⟨.delete, "/api/beads/bd-2/dependencies/bd-1", [], ""⟩⟩,
       ⟨⟨12, 0⟩, "m", ⟨.delete, "/api/beads/bd-2", [ann, ("x-request-id", " r 2 ")], ""⟩⟩]
    let bead := fun (id title created : String) (priority : Int) (labels : List Json)
        (assignee : Json) (status : String) (closed reason : Json) (updated : String) =>
      Json.object
        [("assignee", assignee), ("close_reason", reason), ("closed_at", closed),
         ("created_at", .text created), ("description", .text ""), ("id", .text id),
         ("issue_type", .text "task"), ("labels", .list labels), ("priority", .int priority),
         ("status", .text status), ("title", .text title), ("updated_at", .text updated)]
    let one := bead "bd-1" "one" "1970-01-01T00:00:00Z" 1
    let label := Json.object [("bead_id", .text "bd-1"), ("label", .text "x")]
    let edge := Json.object
      [("created_at", .text "1970-01-01T00:00:05Z"), ("from_id", .text "bd-2"),
       ("kind", .text "blocks"), ("to_id", .text "bd-1")]
    ((ofParts settings {} bus).serve arrivals).store.commented ≤ Text.maxWord64 ∧
      (ofParts settings {} bus).commitCount arrivals = 11 ∧
      ((ofParts settings {} bus).serve arrivals).hub.sequence = 11 ∧
      ((ofParts settings {} bus).serve arrivals).ledger.latest = .ok 11 ∧
      ((ofParts settings {} bus).serve arrivals).ledger.ledger.records.toList =
        [⟨1, "beads.bead.created", "r-1", "ann",
           one [] .null "open" .null .null "1970-01-01T00:00:00Z", ⟨0, 0⟩⟩,
         ⟨2, "beads.label.added", "d", "ann", label, ⟨3, 0⟩⟩,
         ⟨3, "beads.bead.created", "e", "anonymous",
           bead "bd-2" "two" "1970-01-01T00:00:04Z" 2 [] .null "open" .null .null
             "1970-01-01T00:00:04Z", ⟨4, 0⟩⟩,
         ⟨4, "beads.dependency.added", "f", "anonymous", edge, ⟨5, 0⟩⟩,
         ⟨5, "beads.comment.added", "g", "ann",
           .object [("author", .text "ann"), ("bead_id", .text "bd-1"),
             ("created_at", .text "1970-01-01T00:00:06Z"), ("id", .int 1),
             ("text", .text "seen")], ⟨6, 0⟩⟩,
         ⟨6, "beads.bead.updated", "h", "anonymous",
           one [.text "x"] (.text "ann") "open" .null .null "1970-01-01T00:00:07Z", ⟨7, 0⟩⟩,
         ⟨7, "beads.bead.closed", "i", "ann",
           one [.text "x"] (.text "ann") "closed" (.text "1970-01-01T00:00:08Z") (.text "done")
             "1970-01-01T00:00:08Z", ⟨8, 0⟩⟩,
         ⟨8, "beads.bead.reopened", "j", "anonymous",
           one [.text "x"] (.text "ann") "open" .null .null "1970-01-01T00:00:09Z", ⟨9, 0⟩⟩,
         ⟨9, "beads.label.removed", "k", "ann", label, ⟨10, 0⟩⟩,
         ⟨10, "beads.dependency.removed", "l", "anonymous", edge, ⟨11, 0⟩⟩,
         ⟨11, "beads.bead.deleted", "r 2", "ann",
           .object [("id", .text "bd-2"), ("title", .text "two")], ⟨12, 0⟩⟩] ∧
      ((ofParts settings {} bus).serve arrivals).hub.history.toList =
        [⟨10, "beads.dependency.removed", "\x7b\"from_id\":\"bd-2\",\"to_id\":\"bd-1\"," ++
           "\"kind\":\"blocks\",\"created_at\":\"1970-01-01T00:00:05Z\"\x7d"⟩,
         ⟨11, "beads.bead.deleted", "\x7b\"id\":\"bd-2\",\"title\":\"two\"\x7d"⟩] := by
  intro settings bus json ann arrivals bead one label edge
  have hnumber : ((ofParts settings {} bus).serve arrivals).store.commented ≤ Text.maxWord64 :=
    Nat.le_trans (commented_serve_le _ arrivals) (by decide)
  have hrun := (commits_are_published_once settings bus arrivals hnumber).2
  have hempty : (ofParts settings {} bus).store.Keeps fun _ => True := Store.Keeps.empty
  obtain ⟨hrecorded, -⟩ :=
    (Recorded.ofParts settings bus).serve hempty arrivals (fun _ _ => trivial) hnumber
  have hrecords := hrecorded.records
  have hretained := hrecorded.retained
  rw [List.nil_append] at hrecords hretained
  have hcount : (ofParts settings {} bus).commitCount arrivals = 11 := by
    rw [← length_changes]
    decide +kernel
  exact ⟨hnumber, hcount, hrun.1.trans hcount, hrun.2.1.trans (congrArg Except.ok hcount),
    hrecords.trans (by decide +kernel), hretained.trans (by decide +kernel)⟩

end Server

end IssueTracker
