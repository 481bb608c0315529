/-
  IssueTracker/Proofs/Service/Bodies.lean --- requests whose body does not read.

  Six routes take a body (`bodyRoutes`).  A request on a route that changes the store is refused
  as a fault of the client and nothing happens, or it has done what it asks for
  (`refuses_or_done`).  On five of the six routes only a body that reads asks for something, so
  one that does not is refused.  To close a bead the body is optional, and one that does not read
  counts as none: the bead is closed, without a reason.
-/
import IssueTracker.Proofs.Service.Authorization

set_option autoImplicit false

namespace IssueTracker

/-- The answer tells the client that its request is at fault. -/
def Answer.BlamesClient (a : Answer) : Prop := 400 ≤ a.status ∧ a.status < 500

namespace Service

open Http (Request)

variable {caller : Caller} {actor : String} {r : Request} {p : Place} {names : List String}
  {op : Store.Operation} {a : Answer}

/-! ## Routes with a body -/

/-- The routes that take a body. -/
def bodyRoutes : List (Http.Method × Place) :=
  [(.post, .beads), (.patch, .bead), (.post, .close), (.post, .labels), (.post, .dependencies),
   (.post, .comments)]

/-- Does a body read as what a place takes?  What stands behind a value is not looked at. -/
def Place.reads (body : String) : Place → Bool
  | .beads => (Json.readFront Draft.read body).isOk
  | .bead => (Json.readFront Patch.read body).isOk
  | .close => (Json.readFront readCloseReason body).isOk
  | .labels => (Json.readFront readLabel body).isOk
  | .dependencies => (Json.readFront DependencyDraft.read body).isOk
  | .comments => (Json.readFront readCommentText body).isOk
  | _ => true

theorem isOk_of_readBody {α : Type} {read : Json.Reader α} {x : α}
    (h : readBody read r = .ok x) : (Json.readFront read r.body).isOk = true := by
  unfold readBody at h
  split at h
  · cases h
  · split at h
    · cases h
    · split at h
      · cases h
      · split at h
        · next hread =>
            rw [hread]
            rfl
        · cases h

/-- What is asked for at a place with a body stands in the body, but for the closing. -/
theorem reads_of_asksAt (hroute : (r.method, p) ∈ bodyRoutes) (hne : p ≠ .close)
    (h : AsksAt actor r p names op) : p.reads r.body = true := by
  cases h with
  | create hmethod hbody => exact isOk_of_readBody hbody
  | update hmethod hbody => exact isOk_of_readBody hbody
  | delete hmethod =>
      rw [hmethod] at hroute
      exact absurd hroute (by simp [bodyRoutes])
  | close hmethod => exact absurd rfl hne
  | addLabel hmethod hbody => exact isOk_of_readBody hbody
  | addDependency hmethod hbody => exact isOk_of_readBody hbody
  | addComment hmethod hbody => exact isOk_of_readBody hbody
  | _ => rfl

/-- A body that does not read gives no reason. -/
theorem closeReason_of_unread (h : Place.reads r.body .close = false) : closeReason r = none := by
  unfold closeReason
  cases hbody : readBody readCloseReason r with
  | error a => rfl
  | ok reason =>
      have hreads : Place.reads r.body .close = true := isOk_of_readBody hbody
      rw [hreads] at h
      cases h

/-- To close takes one name, and of the body the reason. -/
theorem action_close (hmethod : r.method = .post) :
    Place.close.action caller r names =
      match names with
      | [id] => .ok (.change (.close id (closeReason r)))
      | _ => .error (.noMethod Place.close.allowed) := by
  have hpost : Place.method r = .post := method_eq hmethod (by simp)
  rcases names with _ | ⟨id, _ | ⟨other, rest⟩⟩ <;> simp only [Place.action, hpost]

/-! ## Rejections -/

theorem blames_noMethod (allow : String) : (Answer.noMethod allow).BlamesClient := by
  simp [Answer.BlamesClient, Answer.noMethod]

theorem blames_badRequest : (Answer.rejected 400).BlamesClient := by
  simp [Answer.BlamesClient, Answer.rejected]

theorem blames_unauthorized : Answer.unauthorized.BlamesClient := by
  simp [Answer.BlamesClient, Answer.unauthorized, Answer.error, Answer.json]

theorem blames_of_fromBody {α : Type} {read : Json.Reader α} {operation : α → Store.Operation}
    (h : fromBody read r operation = .error a) : a.BlamesClient := by
  unfold fromBody at h
  split at h
  · cases h
  · next answer hbody =>
      cases h
      have hstatus := readBody_error hbody
      exact ⟨by omega, by omega⟩

theorem blames_of_orBadQuery {read : Option Action} (h : orBadQuery read = .error a) :
    a.BlamesClient := by
  cases read with
  | some action => cases h
  | none =>
      cases h
      exact blames_badRequest

theorem blames_of_action (h : p.action caller r names = .error a) : a.BlamesClient := by
  unfold Place.action at h
  split at h
  all_goals first
    | exact blames_of_fromBody h
    | exact blames_of_orBadQuery h
    | cases h
  exact blames_noMethod _

/-- What cannot be read is the client's fault. -/
theorem blames_of_ofRequest (h : Action.ofRequest caller r = .error a) : a.BlamesClient := by
  unfold Action.ofRequest at h
  split at h
  · cases h
    simp [Answer.BlamesClient, Answer.noRoute]
  · split at h
    · split at h
      · cases h
        exact blames_badRequest
      · exact blames_of_action h
    · cases h
      exact blames_noMethod _

end Service

namespace Server

open Service (Action Asks AsksAt Place bodyRoutes closeReason mutationTopic?)
open Store (Change Operation)

variable {s : Server} {a : Arrival} {op : Operation} {p : Place} {segments : List String}

/-! ## Refusals -/

/-- The client is told that its request is at fault, and that is all that happens. -/
def Refuses (s : Server) (a : Arrival) : Prop :=
  ∃ answer : Answer, answer.BlamesClient ∧ s.receive a = s.answered answer

theorem Refuses.of_answered {answer : Answer} (hblames : answer.BlamesClient)
    (h : s.handleAction a.now a.sender (Action.ofRequest a.sender a.request) = s.answered answer) :
    s.Refuses a := by
  refine ⟨_, ?_, receive_of_answered h⟩
  split <;> exact hblames

theorem blames_of_fault (f : Store.Fault) : (Answer.ofFailure f.failure).BlamesClient := by
  refine ⟨le_status_of_fault f, ?_⟩
  cases f <;> exact Nat.le_of_ble_eq_true rfl

/-- A caller that is let in has the operation done that the request asks for. -/
theorem receive_of_asks (hasks : Asks a.sender.actor a.request op)
    (htopic : mutationTopic? a.request = some op.topic)
    (hgranted : Access.isGranted s.settings a.sender.token = true) :
    s.receive a = s.change a.now a.sender op := by
  rw [receive_eq, if_neg (method_ne_head htopic), Service.ofRequest_eq_change_iff.2 hasks,
    handleAction_of_admits (admits_of_isGranted hgranted _)]
  rfl

/-- What succeeds in the store is done, and answered with success. -/
theorem done_of_perform {c : Change} {after : Store} (hasks : Asks a.sender.actor a.request op)
    (htopic : mutationTopic? a.request = some op.topic)
    (hgranted : Access.isGranted s.settings a.sender.token = true)
    (hperform : s.store.perform a.now op = (.ok c, after)) :
    (s.receive a).response.status = 200 ∧ Done a s op c (s.receive a).server := by
  rw [receive_of_asks hasks htopic hgranted, change, hperform]
  exact ⟨rfl, hasks, htopic, hperform, rfl⟩

/-- A request on a route that changes the store is refused, or it has done what it asks for. -/
theorem refuses_or_done (hroute : (mutationTopic? a.request).isSome) :
    s.Refuses a ∨ Access.isGranted s.settings a.sender.token = true ∧
      ∃ op c, Done a s op c (s.receive a).server := by
  have hreads := Service.reads_ofRequest a.sender a.request
  cases hread : Action.ofRequest a.sender a.request with
  | error answer =>
      refine Or.inl (.of_answered (Service.blames_of_ofRequest hread) ?_)
      rw [hread]
      rfl
  | ok action =>
      rw [hread] at hreads
      cases hreads with
      | shown hlook hnone => simp [hnone] at hroute
      | @asked op hasks htopic =>
          cases hgranted : Access.isGranted s.settings a.sender.token with
          | false =>
              refine Or.inl (.of_answered Service.blames_unauthorized ?_)
              rw [hread]
              exact handleAction_of_not_admits hgranted
          | true =>
              rcases s.store.perform_cases a.now op with ⟨f, hperform⟩ | ⟨c, after, hperform, -⟩
              · refine Or.inl ⟨_, blames_of_fault f, ?_⟩
                rw [receive_of_asks hasks htopic hgranted, change, hperform]
              · exact Or.inr ⟨rfl, op, c, (done_of_perform hasks htopic hgranted hperform).2⟩

/-! ## Bodies that do not read -/

/-- The request with nothing in its body. -/
def Arrival.bodiless (a : Arrival) : Arrival := { a with request := { a.request with body := "" } }

/-- The names in the path are the one of this bead, which is open, and the caller is let in. -/
structure CanClose (s : Server) (a : Arrival) (segments : List String) (id : String) (b : Bead) :
    Prop where
  decode : Service.decodeSegments? segments = some [id]
  granted : Access.isGranted s.settings a.sender.token = true
  get : s.store.get? id = some b
  isOpen : b.status.isClosed = false

theorem isSome_mutationTopic? (hpath : Place.ofPath? a.request.path = some (p, segments))
    (hroute : (a.request.method, p) ∈ bodyRoutes) : (mutationTopic? a.request).isSome := by
  rw [mutationTopic?, hpath, Option.bind_some]
  generalize a.request.method = m at hroute
  simp only [bodyRoutes, List.mem_cons, Prod.mk.injEq, List.not_mem_nil, or_false] at hroute
  rcases hroute with ⟨rfl, rfl⟩ | ⟨rfl, rfl⟩ | ⟨rfl, rfl⟩ | ⟨rfl, rfl⟩ | ⟨rfl, rfl⟩ | ⟨rfl, rfl⟩
  all_goals rfl

/-- What is asked for is asked for at the place of the path. -/
theorem exists_asksAt (hpath : Place.ofPath? a.request.path = some (p, segments))
    (hasks : Asks a.sender.actor a.request op) :
    ∃ names, Service.decodeSegments? segments = some names ∧
      AsksAt a.sender.actor a.request p names op := by
  obtain ⟨p', segments', names, hpath', hspells, hat⟩ := hasks
  rw [hpath, Option.some.injEq, Prod.mk.injEq] at hpath'
  obtain ⟨rfl, rfl⟩ := hpath'
  exact ⟨names, Service.decodeSegments?_eq_some_iff.2 hspells, hat⟩

/-- Where the body is not optional, one that does not read is refused. -/
theorem refuses_of_unread (hpath : Place.ofPath? a.request.path = some (p, segments))
    (hroute : (a.request.method, p) ∈ bodyRoutes) (hne : p ≠ .close)
    (hunread : p.reads a.request.body = false) : s.Refuses a := by
  rcases refuses_or_done (s := s) (isSome_mutationTopic? hpath hroute) with
    hrefuses | ⟨-, op, c, hdone⟩
  · exact hrefuses
  · obtain ⟨names, -, hat⟩ := exists_asksAt hpath hdone.asks
    have hreads := Service.reads_of_asksAt hroute hne hat
    rw [hunread] at hreads
    cases hreads

/-- A bead that can be closed is closed, whatever the body. -/
theorem close_done (hpath : Place.ofPath? a.request.path = some (.close, segments))
    (hmethod : a.request.method = .post) {id : String} {b : Bead}
    (hcan : s.CanClose a segments id b) :
    (s.receive a).response.status = 200 ∧
      Done a s (.close id (closeReason a.request))
        (.closed (Store.shut a.now (closeReason a.request) b)) (s.receive a).server := by
  have hasks : Asks a.sender.actor a.request (.close id (closeReason a.request)) :=
    ⟨.close, segments, [id], hpath, Service.decodeSegments?_eq_some_iff.1 hcan.decode,
      .close hmethod (Service.givesReason_iff.2 rfl)⟩
  have htopic : mutationTopic? a.request = some Topic.beadClosed := by
    rw [mutationTopic?, hpath, hmethod]
    rfl
  have hperform : s.store.perform a.now (.close id (closeReason a.request)) =
      (.ok (.closed (Store.shut a.now (closeReason a.request) b)),
        s.store.put (Store.shut a.now (closeReason a.request) b)) := by
    simp only [Store.perform, Store.close, Store.get, hcan.get, hcan.isOpen]
    rfl
  exact done_of_perform hasks htopic hcan.granted hperform

/-- A request to close is refused unless the bead can be closed. -/
theorem refuses_of_not_canClose (hpath : Place.ofPath? a.request.path = some (.close, segments))
    (hmethod : a.request.method = .post) (hcannot : ∀ id b, ¬ s.CanClose a segments id b) :
    s.Refuses a := by
  have hroute : (a.request.method, Place.close) ∈ bodyRoutes := by
    rw [hmethod]
    simp [bodyRoutes]
  rcases refuses_or_done (s := s) (isSome_mutationTopic? hpath hroute) with
    hrefuses | ⟨hgranted, op, c, hdone⟩
  · exact hrefuses
  · obtain ⟨names, hdecode, hat⟩ := exists_asksAt hpath hdone.asks
    have heffect := hdone.effect
    generalize (s.receive a).server.store = after at heffect
    cases hat with
    | @close id _ _ _ =>
        cases heffect with
        | close hget hopen => exact absurd ⟨hdecode, hgranted, hget, hopen⟩ (hcannot _ _)

/-- A request to close is handled by the reason in its body, and by nothing else there. -/
theorem receive_bodiless (hpath : Place.ofPath? a.request.path = some (.close, segments))
    (hmethod : a.request.method = .post) (hunread : Place.reads a.request.body .close = false) :
    s.receive a = s.receive a.bodiless := by
  have hreason : closeReason a.request = closeReason a.bodiless.request := by
    rw [Service.closeReason_of_unread hunread, Service.closeReason_of_unread rfl]
  have hread : Action.ofRequest a.sender a.request =
      Action.ofRequest a.bodiless.sender a.bodiless.request := by
    have hpath' : Place.ofPath? a.bodiless.request.path = some (.close, segments) := hpath
    have hmethod' : a.bodiless.request.method = .post := hmethod
    simp only [Action.ofRequest, hpath, hpath', hmethod, hmethod', Service.action_close hmethod,
      Service.action_close hmethod', hreason]
  rw [receive_eq, receive_eq, hread]
  rfl

/-! ## What becomes of them -/

/-- What becomes of a body that does not read.  On the routes that need one, the request is refused,
and nothing happens.  To close a bead none is needed: one that does not read counts as none, so the
bead is closed without a reason, unless the same request is refused without a body too. -/
theorem unread_bodies_ask_for_nothing (s : Server) (a : Arrival)
    (hpath : Place.ofPath? a.request.path = some (p, segments))
    (hroute : (a.request.method, p) ∈ bodyRoutes)
    (hunread : p.reads a.request.body = false) :
    (p ≠ .close → s.Refuses a) ∧
      (p = .close →
        s.receive a = s.receive a.bodiless ∧
        (∀ id b, s.CanClose a segments id b →
          (s.receive a).response.status = 200 ∧
            Done a s (.close id none) (.closed (Store.shut a.now none b)) (s.receive a).server) ∧
        ((∀ id b, ¬ s.CanClose a segments id b) → s.Refuses a)) := by
  refine ⟨fun hne => refuses_of_unread hpath hroute hne hunread, ?_⟩
  rintro rfl
  have hmethod : a.request.method = .post := by simpa [bodyRoutes] using hroute
  refine ⟨receive_bodiless hpath hmethod hunread, fun id b hcan => ?_,
    refuses_of_not_canClose hpath hmethod⟩
  rw [← Service.closeReason_of_unread hunread]
  exact close_done hpath hmethod hcan

/-- A server on which one bead was made. -/
def withBead : Server :=
  ((ofParts {} { availability := .failing } {}).receive
    ⟨⟨0, 0⟩, "a", ⟨.post, "/api/beads", [("content-type", "application/json")],
      "\x7b\"title\":\"t\"\x7d"⟩⟩).server

/-- A request with half an object for a body. -/
def halfAnObject (target : String) : Arrival :=
  ⟨⟨1, 0⟩, "b", ⟨.post, target, [("content-type", "application/json")], "\x7b"⟩⟩

theorem halfAnObject_to_close :
    Place.ofPath? (halfAnObject "/api/beads/bd-1/close").request.path = some (.close, ["bd-1"]) ∧
      Place.reads (halfAnObject "/api/beads/bd-1/close").request.body .close = false := by
  decide +kernel

/-- Half an object makes no bead, but closes one. -/
theorem half_an_object_closes :
    let create := halfAnObject "/api/beads"
    let close := halfAnObject "/api/beads/bd-1/close"
    withBead.Refuses create ∧
      ∃ b, withBead.CanClose close ["bd-1"] "bd-1" b ∧
        (withBead.receive close).response.status = 200 ∧
        Done close withBead (.close "bd-1" none) (.closed (Store.shut close.now none b))
          (withBead.receive close).server := by
  intro create close
  have hcreate : Place.ofPath? create.request.path = some (.beads, []) ∧
      Place.reads create.request.body .beads = false := by decide +kernel
  have hbead : (withBead.store.get? "bd-1").map (·.status) = some .opened := by decide +kernel
  obtain ⟨b, hget, hstatus⟩ := Option.map_eq_some_iff.1 hbead
  have hcan : withBead.CanClose close ["bd-1"] "bd-1" b :=
    ⟨by decide +kernel, by decide +kernel, hget, by rw [hstatus]; rfl⟩
  obtain ⟨hrefused, -⟩ := unread_bodies_ask_for_nothing withBead create hcreate.1
    (by simp [create, halfAnObject, bodyRoutes]) hcreate.2
  obtain ⟨-, hclosed⟩ := unread_bodies_ask_for_nothing withBead close halfAnObject_to_close.1
    (by simp [close, halfAnObject, bodyRoutes]) halfAnObject_to_close.2
  exact ⟨hrefused (by simp), b, hcan, (hclosed rfl).2.1 "bd-1" b hcan⟩

/-- Not every request with a body that does not read is the client's fault and changes nothing. -/
theorem not_all_unread_bodies_refused :
    ¬ ∀ (s : Server) (a : Arrival) (p : Place) (segments : List String),
      Place.ofPath? a.request.path = some (p, segments) → (a.request.method, p) ∈ bodyRoutes →
        a.request.body ≠ "" → p.reads a.request.body = false →
        let status := (s.receive a).response.status
        let s' := (s.receive a).server
        400 ≤ status ∧ status < 500 ∧ s'.store = s.store ∧ s'.ledger = s.ledger ∧
          s'.hub = s.hub ∧ s'.bus = s.bus := by
  intro hall
  let close := halfAnObject "/api/beads/bd-1/close"
  have hstatus : (withBead.receive close).response.status = 200 := by decide +kernel
  have hclaimed := (hall withBead close .close ["bd-1"] halfAnObject_to_close.1
    (by simp [close, halfAnObject, bodyRoutes]) (by simp [close, halfAnObject])
    halfAnObject_to_close.2).1
  rw [hstatus] at hclaimed
  exact absurd hclaimed (by simp)

end Server

end IssueTracker
