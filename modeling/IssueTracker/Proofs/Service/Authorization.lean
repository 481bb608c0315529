/-
  IssueTracker/Proofs/Service/Authorization.lean --- what a client without the token gets.

  Every request is read before anybody asks who sends it: it is rejected, it follows the stream,
  or it is for something else (`Opens`).  Without the token a rejection is the answer, the stream
  and everything else but the question for health are refused, and all of these answers are told
  from the settings and the request alone (`exists_answer`).  With the token nothing is refused,
  and no other answer has the status of a refusal (`status_receive_ne`).  A run therefore comes to
  the same server without the requests that do not carry the token (`serve_filter_carries`).
-/
import IssueTracker.Proofs.Service.Publication

set_option autoImplicit false

namespace IssueTracker

namespace Http.Form

variable {form : Form} {name value : String} {read? : Option String}

/-- A field that is read stands in the query. -/
theorem mem_values_of_optional? (h : form.optional? name some = some (some value)) :
    value ∈ form.values name := by
  unfold optional? at h
  split at h
  · cases h
  · next v hvalues =>
      cases h
      rw [hvalues]
      exact List.mem_singleton_self _
  · cases h

/-- A field that stands in a query is what is read, if something is. -/
theorem eq_of_mem_values (h : form.optional? name some = some read?)
    (hmem : value ∈ form.values name) : read? = some value := by
  unfold optional? at h
  split at h
  · next hvalues =>
      rw [hvalues] at hmem
      exact absurd hmem List.not_mem_nil
  · next v hvalues =>
      rw [hvalues, List.mem_singleton] at hmem
      cases h
      rw [hmem]
  · cases h

end Http.Form

namespace Service

open Http (Form Request)

variable {r : Request} {p : Place} {names segments : List String} {action : Action} {a : Answer}
  {path : List Char}

/-! ## The path of the stream -/

/-- Where the events are streamed. -/
def streamPath : List Char := "/api/events/stream".toList

theorem Place.segments_of_stream {pieces : List String}
    (h : Place.ofSegments? pieces = some (.stream, names)) :
    pieces = ["", "api", "events", "stream"] := by
  unfold Place.ofSegments? at h
  split at h
  · cases h
  · cases h
  · cases h
  · next tail =>
      unfold Place.ofEvents? at h
      split at h
      · cases h
      · split at h
        · next htail => rw [htail]
        · cases h
  · split at h
    · cases h
    · split at h <;> cases h
  · unfold Place.ofTail? at h
    repeat' split at h
    all_goals cases h
  · unfold Place.ofMember? at h
    repeat' split at h
    all_goals cases h
  · cases h

theorem Place.ofPath?_streamPath : Place.ofPath? streamPath = some (.stream, []) := by
  decide +kernel

/-- There is one path for the stream. -/
theorem Place.path_of_stream (h : Place.ofPath? path = some (.stream, names)) :
    path = streamPath := by
  have hpieces : Text.split '/' path =
      ["".toList, "api".toList, "events".toList, "stream".toList] := by
    have hmap := congrArg (List.map String.toList) (Place.segments_of_stream h)
    simpa [List.map_map, Function.comp_def] using hmap
  rw [← Text.joinWith_split '/' path, hpieces]
  rfl

/-! ## Readings -/

/-- Does an action follow the stream? -/
def Action.isFollowing : Action → Bool
  | .follow _ _ _ => true
  | _ => false

/-- What a request is read as: a rejection, which is never for want of a token, the stream with the
token of the query, or something else. -/
inductive Opens (r : Request) : Except Answer Action → Prop where
  | rejected {a : Answer} (hstatus : a.status ≠ Access.refusalStatus) : Opens r (.error a)
  | stream {filter : Topic.Filter} {token : Option String} {lastSeen : Option Nat}
      (hpath : r.path = streamPath)
      (htoken : (Form.parse r.query).optional? "token" some = some token) :
      Opens r (.ok (.follow filter token lastSeen))
  | other {action : Action} (hpath : r.path ≠ streamPath) (haction : action.isFollowing = false) :
      Opens r (.ok action)

theorem Opens.body {α : Type} (hpath : r.path ≠ streamPath) (read : Json.Reader α)
    (operation : α → Store.Operation) : Opens r (fromBody read r operation) := by
  unfold fromBody
  cases hbody : readBody read r with
  | ok x => exact .other hpath rfl
  | error a =>
      have hstatus : a.status ≠ 401 := by
        have hread := readBody_error hbody
        omega
      exact .rejected hstatus

theorem Opens.query (hpath : r.path ≠ streamPath) {read : Option Action}
    (haction : ∀ action, read = some action → action.isFollowing = false) :
    Opens r (orBadQuery read) := by
  unfold orBadQuery
  cases read with
  | none => exact .rejected (by decide)
  | some action => exact .other hpath (haction action rfl)

theorem readListing?_isFollowing (form : Form) (h : readListing? form = some action) :
    action.isFollowing = false := by
  simp only [readListing?, Option.bind_eq_bind, Option.bind_eq_some_iff, Option.pure_def,
    Option.some.injEq] at h
  obtain ⟨-, -, -, -, -, -, rfl⟩ := h
  rfl

theorem readPage?_isFollowing (form : Form) (h : readPage? form = some action) :
    action.isFollowing = false := by
  simp only [readPage?, Option.bind_eq_bind, Option.bind_eq_some_iff, Option.pure_def,
    Option.some.injEq] at h
  obtain ⟨-, -, -, -, -, -, rfl⟩ := h
  rfl

theorem Opens.following (hpath : r.path = streamPath) :
    Opens r (orBadQuery (readFollowing? r (Form.parse r.query))) := by
  unfold orBadQuery
  cases hread : readFollowing? r (Form.parse r.query) with
  | none => exact .rejected (by decide)
  | some action =>
      simp only [readFollowing?, Option.bind_eq_bind, Option.bind_eq_some_iff, Option.pure_def,
        Option.some.injEq] at hread
      obtain ⟨topics, -, token, htoken, rfl⟩ := hread
      exact .stream hpath htoken

/-- One case for each route. -/
theorem opens_action (caller : Caller) (names : List String)
    (hplace : Place.ofPath? r.path = some (p, segments)) : Opens r (p.action caller r names) := by
  have hother : p ≠ .stream → r.path ≠ streamPath := by
    intro hp hpath
    rw [hpath, Place.ofPath?_streamPath] at hplace
    cases hplace
    exact hp rfl
  unfold Place.action
  split
  · exact .other (hother (by decide)) rfl
  · exact .query (hother (by decide)) fun _ => readListing?_isFollowing _
  · exact .body (hother (by decide)) _ _
  · exact .other (hother (by decide)) rfl
  · exact .other (hother (by decide)) rfl
  · exact .body (hother (by decide)) _ _
  · exact .other (hother (by decide)) rfl
  · exact .other (hother (by decide)) rfl
  · exact .other (hother (by decide)) rfl
  · exact .body (hother (by decide)) _ _
  · exact .other (hother (by decide)) rfl
  · exact .other (hother (by decide)) rfl
  · exact .body (hother (by decide)) _ _
  · exact .other (hother (by decide)) rfl
  · exact .other (hother (by decide)) rfl
  · exact .body (hother (by decide)) _ _
  · exact .query (hother (by decide)) fun _ => readPage?_isFollowing _
  · exact .other (hother (by decide)) rfl
  · exact .following (Place.path_of_stream hplace)
  · exact .rejected (by simp [Answer.noMethod, Access.refusalStatus])

theorem opens_ofRequest (caller : Caller) (r : Request) :
    Opens r (Action.ofRequest caller r) := by
  unfold Action.ofRequest
  cases hplace : Place.ofPath? r.path with
  | none => exact .rejected (by decide)
  | some place =>
      obtain ⟨p, segments⟩ := place
      simp only
      split
      · cases decodeSegments? segments with
        | none => exact .rejected (by decide)
        | some names => exact opens_action caller names hplace
      · exact .rejected (by simp [Answer.noMethod, Access.refusalStatus])

/-! ## Tokens -/

/-- The token is what stands behind the mark in the header. -/
theorem token?_eq_some_iff {token : String} :
    token? r = some token ↔ r.header? "authorization" = some ("Bearer " ++ token) := by
  unfold token?
  cases r.header? "authorization" with
  | none => simp
  | some value =>
      simp only [Option.ite_none_right_eq_some, Option.some.injEq, List.isPrefixOf_iff_prefix]
      constructor
      · rintro ⟨⟨rest, hrest⟩, htoken⟩
        rw [← hrest, List.drop_left] at htoken
        rw [← @String.ofList_toList value, ← hrest, String.ofList_append, htoken]
        rfl
      · rintro rfl
        have hmark : ("Bearer " ++ token).toList = tokenMark ++ token.toList :=
          String.toList_append
        rw [hmark, List.drop_left, String.ofList_toList]
        exact ⟨List.prefix_append _ _, rfl⟩

end Service

namespace Server

open Http (Form Request)
open Service (Action Caller Opens opens_ofRequest streamPath token?_eq_some_iff)

variable {s : Server} {settings : Settings} {r : Request} {caller : Caller} {action : Action}
  {now : Instant} {read : Except Answer Action} {a : Arrival}

/-! ## Who carries the token -/

/-- The first header for a token has it. -/
def ShowsInHeader (settings : Settings) (r : Request) : Prop :=
  r.sent? "authorization" = some ("Bearer " ++ settings.userToken)

/-- The request is for the stream, and its query has the token. -/
def ShowsInQuery (settings : Settings) (r : Request) : Prop :=
  r.path = streamPath ∧ settings.userToken ∈ (Form.parse r.query).values "token"

/-- The request carries the token, in one of the two places. -/
def Carries (settings : Settings) (r : Request) : Prop :=
  ShowsInHeader settings r ∨ ShowsInQuery settings r

/-- It does, and if only in the header, then as plain text. -/
def CarriesPlainly (settings : Settings) (r : Request) : Prop :=
  ShowsInHeader settings r ∧ Request.isPlain ("Bearer " ++ settings.userToken) = true ∨
    ShowsInQuery settings r

instance : Decidable (Carries settings r) :=
  inferInstanceAs (Decidable (_ = _ ∨ _ = _ ∧ _ ∈ _))

instance : Decidable (CarriesPlainly settings r) :=
  inferInstanceAs (Decidable (_ = _ ∧ _ = _ ∨ _ = _ ∧ _ ∈ _))

theorem tokenOpens_iff (hnamed : settings.userToken ≠ "") (token : String) :
    Access.tokenOpens settings token = true ↔ token = settings.userToken := by
  simp [Access.tokenOpens, Settings.authEnabled, hnamed]

theorem isGranted_iff (hnamed : settings.userToken ≠ "") {token : Option String} :
    Access.isGranted settings token = true ↔ token = some settings.userToken := by
  cases token with
  | none => simp [Access.isGranted, Settings.authEnabled, hnamed]
  | some token =>
      have hopens := tokenOpens_iff hnamed token
      simp [Access.isGranted, Settings.authEnabled, hnamed, hopens]

theorem isGranted_of_unnamed (hunnamed : settings.userToken = "") (token : Option String) :
    Access.isGranted settings token = true := by
  simp [Access.isGranted, Settings.authEnabled, hunnamed]

/-- Whoever is let in by the header may have everything done. -/
theorem admits_of_isGranted (h : Access.isGranted settings caller.token = true)
    (action : Action) : admits settings caller action = true := by
  cases action <;> simp [admits, h]

/-- The header lets in who shows the token there as plain text. -/
theorem isGranted_callerOf_iff (hnamed : settings.userToken ≠ "") (fresh : String) :
    Access.isGranted settings (Service.callerOf fresh r).token = true ↔
      ShowsInHeader settings r ∧
        Request.isPlain ("Bearer " ++ settings.userToken) = true := by
  rw [isGranted_iff hnamed]
  exact token?_eq_some_iff.trans Request.header?_eq_some_iff

/-! ## Without the token -/

/-- Who is not let in gets an answer that is told from the settings and the request alone. -/
theorem exists_answer (now : Instant) (hnamed : settings.userToken ≠ "")
    (hgranted : Access.isGranted settings caller.token = false)
    (hquery : ¬ ShowsInQuery settings r) (hopens : Opens r read) :
    ∃ answer : Answer, ∀ s : Server, s.settings = settings →
      s.handleAction now caller read = s.answered answer := by
  cases hopens with
  | @rejected answer hstatus => exact ⟨answer, fun s _ => rfl⟩
  | @stream filter token lastSeen hpath htoken =>
      refine ⟨.unauthorized, ?_⟩
      rintro s rfl
      apply handleAction_of_not_admits
      rw [admits, hgranted, Bool.false_or, Option.any_eq_false]
      rintro shown rfl
      rw [← Bool.not_eq_true, tokenOpens_iff hnamed]
      rintro rfl
      exact hquery ⟨hpath, Form.mem_values_of_optional? htoken⟩
  | @other action hpath haction =>
      cases action with
      | health => exact ⟨.ok (.object [("status", .text "ok")]), fun s _ => rfl⟩
      | follow filter token lastSeen => cases haction
      | _ =>
          refine ⟨.unauthorized, ?_⟩
          rintro s rfl
          exact handleAction_of_not_admits hgranted

/-- An answer whose body is left out is still an answer. -/
theorem receive_of_answered {answer : Answer}
    (h : s.handleAction a.now a.sender (Action.ofRequest a.sender a.request) = s.answered answer) :
    s.receive a =
      s.answered (if a.request.method = .head then answer.withoutBody else answer) := by
  rw [receive_eq, h]
  split <;> rfl

theorem receive_of_not_carries (hnamed : settings.userToken ≠ "")
    (hcarries : ¬ Carries settings a.request) :
    ∃ answer : Answer, ∀ s : Server, s.settings = settings →
      s.receive a = ⟨.answer answer, s, 0⟩ := by
  obtain ⟨hheader, hquery⟩ := not_or.1 hcarries
  have hgranted : Access.isGranted settings a.sender.token = false := by
    rw [← Bool.not_eq_true]
    intro hgranted
    exact hheader ((isGranted_callerOf_iff hnamed a.fresh).1 hgranted).1
  obtain ⟨answer, hanswer⟩ := exists_answer a.now hnamed hgranted hquery
    (opens_ofRequest a.sender a.request)
  exact ⟨_, fun s hs => receive_of_answered (hanswer s hs)⟩

/-! ## With the token -/

theorem success_ne : (200 : Nat) ≠ Access.refusalStatus := by decide

theorem status_failure_ne (f : Failure) : (Answer.ofFailure f).status ≠ Access.refusalStatus := by
  show f.status ≠ Access.refusalStatus
  cases f <;> simp [Failure.status, Access.refusalStatus]

theorem status_shown_ne {α : Type} (write : α → Json) (result : Except Store.Fault α)
    (s : Server) : (s.shown write result).response.status ≠ Access.refusalStatus := by
  cases result with
  | ok x => exact success_ne
  | error f => exact status_failure_ne f.failure

theorem status_change_ne (now : Instant) (caller : Caller) (op : Store.Operation) (s : Server) :
    (s.change now caller op).response.status ≠ Access.refusalStatus := by
  unfold change
  split
  · next f store _ => exact status_failure_ne f.failure
  · exact success_ne

/-- What is done for a client that was let in is not answered with a refusal. -/
theorem status_act_ne (now : Instant) (caller : Caller) (s : Server) (action : Action) :
    (s.act now caller action).response.status ≠ Access.refusalStatus := by
  cases action with
  | detail id => exact status_shown_ne _ _ s
  | edges id => exact status_shown_ne _ _ s
  | comments id => exact status_shown_ne _ _ s
  | change op => exact status_change_ne now caller op s
  | records after filter limit =>
      simp only [act, records]
      split
      · exact success_ne
      · exact status_failure_ne .internal
  | _ => exact success_ne

theorem status_headOf (h : Handled) : (headOf h).response.status = h.response.status := by
  unfold headOf
  split
  · next a ha =>
      rw [ha]
      rfl
  · rfl

/-- Whoever is let in is not refused. -/
theorem status_receive_ne
    (hadmits : ∀ action, Action.ofRequest a.sender a.request = .ok action →
      admits s.settings a.sender action = true) :
    (s.receive a).response.status ≠ Access.refusalStatus := by
  have hopens := opens_ofRequest a.sender a.request
  have hstatus : (s.handleAction a.now a.sender
      (Action.ofRequest a.sender a.request)).response.status ≠ Access.refusalStatus := by
    cases hread : Action.ofRequest a.sender a.request with
    | ok action =>
        rw [handleAction_of_admits (hadmits action hread)]
        exact status_act_ne a.now a.sender s action
    | error answer =>
        rw [hread] at hopens
        cases hopens with
        | rejected hrejected => exact hrejected
  rw [receive_eq]
  split
  · rw [status_headOf]
    exact hstatus
  · exact hstatus

/-- The token in the query opens the stream, and there is nothing else on its path. -/
theorem admits_of_showsInQuery (h : ShowsInQuery settings r)
    (hopens : Opens r (.ok action)) : admits settings caller action = true := by
  cases hopens with
  | stream hpath htoken =>
      rw [Form.eq_of_mem_values htoken h.2]
      simp [admits, Access.tokenOpens]
  | other hpath haction => exact absurd h.1 hpath

theorem admits_of_carriesPlainly (hcarries : CarriesPlainly settings a.request)
    (hopens : Opens a.request (.ok action)) : admits settings a.sender action = true := by
  rcases hcarries with hheader | hquery
  · by_cases hnamed : settings.userToken = ""
    · exact admits_of_isGranted (isGranted_of_unnamed hnamed _) action
    · exact admits_of_isGranted ((isGranted_callerOf_iff hnamed a.fresh).2 hheader) action
  · exact admits_of_showsInQuery hquery hopens

/-- Whatever the request, its route, its method and its body: if the settings hold a token and the
request does not carry it, then there is one answer to it, whatever the service holds besides its
settings, and the service stays as it is; nothing is waited for, and no stream is opened.  A request
that carries the token is never refused, and without a token in the settings none is. -/
theorem only_the_token_opens_the_service (settings : Settings) (a : Arrival) :
    (settings.userToken ≠ "" → ¬ Carries settings a.request →
      ∃ answer : Answer, ∀ s : Server, s.settings = settings →
        s.receive a = ⟨.answer answer, s, 0⟩) ∧
    (CarriesPlainly settings a.request →
      ∀ s : Server, s.settings = settings → (s.receive a).response.status ≠ 401) ∧
    (settings.userToken = "" →
      ∀ s : Server, s.settings = settings → (s.receive a).response.status ≠ 401) := by
  refine ⟨receive_of_not_carries, ?_, ?_⟩
  · rintro hcarries s rfl
    apply status_receive_ne
    intro action hread
    have hopens := opens_ofRequest a.sender a.request
    rw [hread] at hopens
    exact admits_of_carriesPlainly hcarries hopens
  · rintro hunnamed s rfl
    apply status_receive_ne
    intro action _
    exact admits_of_isGranted (isGranted_of_unnamed hunnamed _) action

/-- The scheme and the token are taken to the letter, the name of the header is not; two fields for
the token are a mistake, though not one of the token. -/
theorem token_to_the_letter :
    let settings : Settings := { userToken := "key" }
    let s := ofParts settings {} {}
    let follow (query : String) (headers : List (String × String)) : Arrival :=
      ⟨⟨0, 0⟩, "", ⟨.get, "/api/events/stream?" ++ query, headers, ""⟩⟩
    let bare := follow "token=Key" [("Authorization", "bearer key")]
    let shown := follow "topics=x" [("AUTHORIZATION", "Bearer key")]
    let twice := follow "token=key&token=key" []
    (settings.userToken ≠ "" ∧ ¬ Carries settings bare.request ∧
      CarriesPlainly settings shown.request ∧ CarriesPlainly settings twice.request) ∧
    (s.receive bare).server = s ∧ (s.receive bare).response.status = 401 ∧
    (s.receive shown).response.status ≠ 401 ∧ (s.receive twice).response.status ≠ 401 := by
  intro settings s follow bare shown twice
  have hinputs : settings.userToken ≠ "" ∧ ¬ Carries settings bare.request ∧
      CarriesPlainly settings shown.request ∧ CarriesPlainly settings twice.request := by
    decide +kernel
  obtain ⟨hnamed, hbare, hshown, htwice⟩ := hinputs
  obtain ⟨answer, hanswer⟩ := (only_the_token_opens_the_service settings bare).1 hnamed hbare
  refine ⟨⟨hnamed, hbare, hshown, htwice⟩, congrArg Handled.server (hanswer s rfl), ?_, ?_, ?_⟩
  · decide +kernel
  · exact (only_the_token_opens_the_service settings shown).2.1 hshown s rfl
  · exact (only_the_token_opens_the_service settings twice).2.1 htwice s rfl

/-! ## Runs -/

/-- No request changes the settings. -/
theorem settings_receive (s : Server) (a : Arrival) :
    (s.receive a).server.settings = s.settings := by
  rcases s.receive_cases a with ⟨-, huntouched⟩ | ⟨-, op, c, hdone⟩
  · exact huntouched.settings
  · exact hdone.settings

/-- A run comes to where it comes to without the requests that do not carry the token. -/
theorem serve_filter_carries (hnamed : settings.userToken ≠ "") (hsettings : s.settings = settings)
    (arrivals : List Arrival) :
    s.serve (arrivals.filter fun a => decide (Carries settings a.request)) = s.serve arrivals := by
  induction arrivals generalizing s with
  | nil => rfl
  | cons a rest ih =>
      by_cases hcarries : Carries settings a.request
      · rw [List.filter_cons_of_pos (by simpa using hcarries)]
        exact ih ((s.settings_receive a).trans hsettings)
      · obtain ⟨answer, hanswer⟩ := receive_of_not_carries hnamed hcarries
        rw [List.filter_cons_of_neg (by simpa using hcarries), serve, hanswer s hsettings]
        exact ih hsettings

end Server

end IssueTracker
