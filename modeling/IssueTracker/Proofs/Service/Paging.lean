/-
  IssueTracker/Proofs/Service/Paging.lean --- a client that reads the ledger page by page.

  A client asks for the page behind the cursor that the page before gave it, while others ask for
  other things and the ledger is offered more (`Turn`).  What it has read is at every time what
  the ledger has between the cursor of the start and its own (`Complete`): a page is what the
  ledger has up to the cursor behind it, and what is recorded meanwhile lies behind that.  What is
  left to be read gets shorter by the page, so that without more offers the last page is empty.
-/
import IssueTracker.Proofs.Ledger.Pages
import IssueTracker.Proofs.Service.Publication

set_option autoImplicit false

namespace IssueTracker

namespace Service

open Http (Form)

variable {form : Form} {cursor : Int} {topics : Option String} {asked : Option Nat}

/-- A query that asks for the page behind a cursor; no cursor is zero, and it may say how many
records it wants. -/
structure PageFields (form : Form) (cursor : Int) (topics : Option String) (asked : Option Nat) :
    Prop where
  after : (form.optional? "after" fun s => Text.signed? s.toList).map (·.getD 0) = some cursor
  topics : form.optional? "topics" some = some topics
  limit : (form.optional? "limit" fun s => Text.unsigned? Text.maxWord64 s.toList) = some asked

theorem PageFields.read (h : PageFields form cursor topics asked) :
    readPage? form = some (.records cursor (filterOf topics) (pageSize asked)) := by
  obtain ⟨after, hafter, rfl⟩ := Option.map_eq_some_iff.1 h.after
  simp only [readPage?, hafter, h.topics, h.limit, Option.bind_eq_bind, Option.bind_some,
    Option.pure_def]

/-- Every page has room for a record. -/
theorem pageSize_pos (asked : Option Nat) : 0 < pageSize asked := Nat.le_max_left 1 _

end Service

namespace Server

open Service (PageFields Place filterOf pageSize pageSize_pos)

variable {s : Server} {a : Arrival} {start cursor : Int} {topics : Option String}
  {asked : Option Nat} {filter : Topic.Filter}

/-! ## Requests -/

/-- A request for the page behind a cursor, of a client that is let in. -/
structure AsksPage (s : Server) (a : Arrival) (cursor : Int) (topics : Option String)
    (asked : Option Nat) : Prop where
  method : a.request.method = .get
  place : Place.ofPath? a.request.path = some (.events, [])
  fields : PageFields (Http.Form.parse a.request.query) cursor topics asked
  granted : Access.isGranted s.settings a.sender.token = true

/-- It is answered with the page, and nothing else comes of it. -/
theorem AsksPage.receive (h : AsksPage s a cursor topics asked)
    (haccepting : s.ledger.availability = .accepting) :
    s.receive a = s.answered (.ok (pageJson cursor
      (s.ledger.ledger.query cursor (filterOf topics) (pageSize asked)))) := by
  have haction : Service.Action.ofRequest a.sender a.request =
      .ok (.records cursor (filterOf topics) (pageSize asked)) := by
    have hmethod : Place.method a.request = .get := Service.method_eq h.method (by decide)
    have hknown : Http.Method.get ∈ Place.events.methods := by decide
    simp only [Service.Action.ofRequest, h.place, h.method, if_pos hknown,
      Service.decodeSegments?, Place.action, hmethod, h.fields.read, Service.orBadQuery]
  have hhead : ¬ a.request.method = .head := by
    rw [h.method]
    decide
  have hadmits : admits s.settings a.sender
      (.records cursor (filterOf topics) (pageSize asked)) = true := h.granted
  rw [receive_eq, if_neg hhead, haction, handleAction_of_admits hadmits]
  simp only [act, records, LedgerSink.query, haccepting]

/-- A request is at most one record more. -/
theorem receive_grows (a : Arrival) (haccepting : s.ledger.availability = .accepting) :
    (s.receive a).server.ledger.availability = .accepting ∧
      s.ledger.ledger.Grows (s.receive a).server.ledger.ledger := by
  rcases s.receive_cases a with ⟨-, huntouched⟩ | ⟨-, op, c, hdone⟩
  · rw [huntouched.ledger]
    exact ⟨haccepting, Or.inl rfl⟩
  · rw [hdone.publish]
    exact LedgerSink.offer_grows haccepting _ _

/-! ## Reading page by page -/

/-- What happens while a client reads the ledger. -/
inductive Turn where
  /-- The ledger is offered an entry. -/
  | offer (now : Instant) (e : Ledger.Entry)
  /-- Somebody asks for something. -/
  | request (a : Arrival)
  /-- The client asks for the next page. -/
  | page (a : Arrival) (asked : Option Nat)

/-- Does the client ask for a page? -/
def Turn.isPage : Turn → Bool
  | .page _ _ => true
  | _ => false

/-- A client that reads the ledger page by page, and the server that it asks. -/
structure Pager where
  server : Server
  /-- The cursor for the next page. -/
  cursor : Int
  /-- The records of the pages so far. -/
  read : List Ledger.Record

namespace Pager

variable {p : Pager} {t : Turn} {turns : List Turn}

/-- The client before its first page.  The ledger has what was taken of the entries that it was
offered. -/
def before (s : Server) (entries : List (Instant × Ledger.Entry)) (start : Int) : Pager :=
  ⟨{ s with ledger := .offered entries {} }, start, []⟩

/-- The next page. -/
def next (filter : Topic.Filter) (asked : Option Nat) (p : Pager) : List Ledger.Record :=
  p.server.ledger.ledger.query p.cursor filter (pageSize asked)

/-- The records that are left to be read. -/
def unread (filter : Topic.Filter) (p : Pager) : List Ledger.Record :=
  p.server.ledger.ledger.matching p.cursor filter

/-- One turn. -/
def step (filter : Topic.Filter) (p : Pager) : Turn → Pager
  | .offer now e => { p with server.ledger := (p.server.ledger.offer now e).2 }
  | .request a => { p with server := (p.server.receive a).server }
  | .page a asked =>
      ⟨(p.server.receive a).server, Ledger.nextCursor p.cursor (p.next filter asked),
        p.read ++ p.next filter asked⟩

/-- Turns, one after the other. -/
def run (filter : Topic.Filter) (p : Pager) : List Turn → Pager
  | [] => p
  | t :: rest => (p.step filter t).run filter rest

/-- Where the client asks for a page, it asks for the one behind its cursor, with its topics. -/
def Asks (topics : Option String) (p : Pager) : Turn → Prop
  | .page a asked => AsksPage p.server a p.cursor topics asked
  | _ => True

/-- It does so in all of the turns. -/
def Follows (topics : Option String) (p : Pager) : List Turn → Prop
  | [] => True
  | t :: rest => p.Asks topics t ∧ (p.step (filterOf topics) t).Follows topics rest

theorem run_append (filter : Topic.Filter) (p : Pager) (first second : List Turn) :
    p.run filter (first ++ second) = (p.run filter first).run filter second := by
  induction first generalizing p with
  | nil => rfl
  | cons t first ih => exact ih _

theorem follows_append {first second : List Turn} :
    p.Follows topics (first ++ second) ↔
      p.Follows topics first ∧ (p.run (filterOf topics) first).Follows topics second := by
  induction first generalizing p with
  | nil => exact ⟨fun h => ⟨trivial, h⟩, fun h => h.2⟩
  | cons t first ih =>
      rw [List.cons_append, Follows, Follows, ih, run, and_assoc]

/-! ## What was read -/

/-- The client has read all that the ledger has between the start and its cursor, which is the
number of the last record that it has read. -/
structure Complete (start : Int) (filter : Topic.Filter) (p : Pager) : Prop where
  accepting : p.server.ledger.availability = .accepting
  numbered : p.server.ledger.ledger.Numbered
  read : p.read = p.server.ledger.ledger.between start p.cursor filter
  cursor : p.cursor = Ledger.nextCursor start p.read
  start_le : start ≤ p.cursor
  /-- Whatever is recorded later lies behind the cursor, or before the start. -/
  known : p.cursor ≤ start ∨ p.cursor ≤ p.server.ledger.ledger.latest

namespace Complete

theorem before (s : Server) (entries : List (Instant × Ledger.Entry)) (start : Int)
    (filter : Topic.Filter) : Complete start filter (.before s entries start) := by
  have hempty : ({} : LedgerSink).availability = .accepting := rfl
  obtain ⟨haccepting, hnumbered⟩ :=
    LedgerSink.offered_numbered entries hempty Ledger.numbered_empty
  refine ⟨haccepting, hnumbered, ?_, rfl, Int.le_refl _, Or.inl (Int.le_refl _)⟩
  exact (Ledger.between_self start filter).symm

/-- The ledger may grow at any time. -/
theorem grows {server : Server} (h : Complete start filter p)
    (haccepting : server.ledger.availability = .accepting)
    (hgrows : p.server.ledger.ledger.Grows server.ledger.ledger) :
    Complete start filter { p with server } where
  accepting := haccepting
  numbered := h.numbered.grows hgrows
  read := h.read.trans (hgrows.between_eq h.known filter).symm
  cursor := h.cursor
  start_le := h.start_le
  known := by
    have hlatest := h.numbered.latest_le_of_grows hgrows
    have hknown := h.known
    simp only
    omega

/-- A page is all that there is up to the cursor behind it. -/
theorem page (h : Complete start filter p) (a : Arrival) (asked : Option Nat)
    (hsame : (p.server.receive a).server = p.server) :
    Complete start filter (p.step filter (.page a asked)) := by
  have hforth : p.cursor ≤ Ledger.nextCursor p.cursor (p.next filter asked) :=
    h.numbered.le_nextCursor p.cursor filter (pageSize asked)
  rw [step, hsame]
  refine ⟨h.accepting, h.numbered, ?_, ?_, Int.le_trans h.start_le hforth, ?_⟩
  · have hpage : p.next filter asked = p.server.ledger.ledger.between p.cursor
        (Ledger.nextCursor p.cursor (p.next filter asked)) filter :=
      h.numbered.query_eq_between p.cursor filter (pageSize asked)
    have hsum := h.numbered.between_append_between h.start_le hforth filter
    rw [← h.read, ← hpage] at hsum
    exact hsum
  · simp only
    rw [Ledger.nextCursor_append, ← h.cursor]
  · by_cases hpage : p.next filter asked = []
    · rw [hpage, Ledger.nextCursor_nil]
      exact h.known
    · exact Or.inr (h.numbered.lt_nextCursor hpage).2

theorem step (h : Complete start (filterOf topics) p) (hasks : p.Asks topics t) :
    Complete start (filterOf topics) (p.step (filterOf topics) t) := by
  cases t with
  | offer now e =>
      obtain ⟨haccepting, hgrows⟩ := LedgerSink.offer_grows h.accepting now e
      exact h.grows haccepting hgrows
  | request a =>
      obtain ⟨haccepting, hgrows⟩ := receive_grows a h.accepting
      exact h.grows haccepting hgrows
  | page a asked =>
      have hreceive := AsksPage.receive hasks h.accepting
      exact h.page a asked (congrArg Handled.server hreceive)

theorem run (h : Complete start (filterOf topics) p) (hfollows : p.Follows topics turns) :
    Complete start (filterOf topics) (p.run (filterOf topics) turns) := by
  induction turns generalizing p with
  | nil => exact h
  | cons t rest ih => exact ih (h.step hfollows.1) hfollows.2

/-- What was read and what is left is all that there is behind the start. -/
theorem read_append_unread (h : Complete start filter p) :
    p.read ++ p.unread filter = p.server.ledger.ledger.matching start filter := by
  rw [h.read]
  exact h.numbered.between_append_matching h.start_le

theorem next_eq_nil_iff (h : Complete start filter p) (asked : Option Nat) :
    p.next filter asked = [] ↔ p.unread filter = [] :=
  h.numbered.query_eq_nil_iff (pageSize_pos asked)

/-- A page is taken from what is left. -/
theorem next_append_unread (h : Complete start filter p) (asked : Option Nat) {a : Arrival}
    (hsame : (p.server.receive a).server = p.server) :
    p.next filter asked ++ (p.step filter (.page a asked)).unread filter = p.unread filter := by
  have hafter := (h.page a asked hsame).read_append_unread
  have hread : (p.step filter (.page a asked)).read = p.read ++ p.next filter asked := rfl
  have hserver : (p.step filter (.page a asked)).server = p.server := hsame
  rw [hread, hserver, ← h.read_append_unread, List.append_assoc] at hafter
  exact List.append_cancel_left hafter

/-- A client that only asks for pages comes to an empty one, when it has read everything. -/
theorem exists_empty (h : Complete start (filterOf topics) p) (hfollows : p.Follows topics turns)
    (hpages : ∀ t ∈ turns, t.isPage = true)
    (hmany : (p.unread (filterOf topics)).length < turns.length) :
    ∃ first a asked rest, turns = first ++ .page a asked :: rest ∧
      (p.run (filterOf topics) first).server = p.server ∧
      (p.run (filterOf topics) first).next (filterOf topics) asked = [] ∧
      (p.run (filterOf topics) first).read =
        p.server.ledger.ledger.matching start (filterOf topics) := by
  induction turns generalizing p with
  | nil => exact absurd hmany (Nat.not_lt_zero _)
  | cons t rest ih =>
      rw [List.forall_mem_cons] at hpages
      obtain ⟨a, asked, rfl⟩ : ∃ a asked, t = .page a asked := by
        cases t with
        | page a asked => exact ⟨a, asked, rfl⟩
        | offer | request => exact absurd hpages.1 (by simp [Turn.isPage])
      by_cases hnext : p.next (filterOf topics) asked = []
      · have hnone := (h.next_eq_nil_iff asked).1 hnext
        have hall := h.read_append_unread
        rw [hnone, List.append_nil] at hall
        exact ⟨[], a, asked, rest, rfl, rfl, hnext, hall⟩
      · have hsame : (p.server.receive a).server = p.server :=
          congrArg Handled.server (AsksPage.receive hfollows.1 h.accepting)
        have hserver : (p.step (filterOf topics) (.page a asked)).server = p.server := hsame
        -- The page is not empty, so less is left.
        have hless := congrArg List.length (h.next_append_unread asked hsame)
        have hpage := List.length_pos_of_ne_nil hnext
        rw [List.length_append] at hless
        rw [List.length_cons] at hmany
        obtain ⟨first, b, more, later, rfl, hlast, hempty, hread⟩ :=
          ih (h.page a asked hsame) hfollows.2 hpages.2 (by omega)
        rw [hserver] at hlast hread
        exact ⟨.page a asked :: first, b, more, later, rfl, hlast, hempty, hread⟩

end Complete

end Pager

/-- The service has a ledger in memory, with any contents.  A client reads it page by page from any
cursor on, with the same topics and with whatever limits, and between its requests others ask for
whatever they like and the ledger is offered more.  Each page has its records, member by member,
and the cursor for the next; it is empty exactly if the ledger then has no record to show behind the
cursor, which stays, and else the cursor moves on.  At any time the client has read, in the order of
their numbers and each once, all records to show between the start and its cursor, which is the
number of the last of them.  If from then on it only asks for pages, and for more of them than there
are records left, it comes to an empty one and has read all that there are behind the start. -/
theorem pages_neither_lose_nor_repeat (s : Server) (entries : List (Instant × Ledger.Entry))
    (start : Int) (topics : Option String) (turns : List Turn)
    (hfollows : (Pager.before s entries start).Follows topics turns) :
    let filter := filterOf topics
    let first := Pager.before s entries start
    (∀ earlier a asked later, turns = earlier ++ .page a asked :: later →
      let p := first.run filter earlier
      let p' := p.step filter (.page a asked)
      ∃ page : List Ledger.Record, p'.read = p.read ++ page ∧
        (p.server.receive a).response = .answer ⟨200, some "application/json", none,
          some (Json.render (.object
            [("events", .list (page.map fun r => .object
               [("id", .int r.id), ("topic", .text r.topic),
                ("correlation_id", .text r.correlationId), ("actor", .text r.actor),
                ("payload", r.payload), ("created_at", .text r.createdAt.write)])),
             ("next_cursor", .int p'.cursor)]))⟩ ∧
        (page = [] ↔ ∀ r ∈ p.server.ledger.ledger.records.toList,
          ¬ (p.cursor < r.id ∧ filter.passes r.topic = true)) ∧
        (page = [] → p'.cursor = p.cursor) ∧ (page ≠ [] → p.cursor < p'.cursor)) ∧
    ∀ earlier later, turns = earlier ++ later →
      let p := first.run filter earlier
      p.read = p.server.ledger.ledger.between start p.cursor filter ∧
      p.read.Pairwise (·.id < ·.id) ∧
      p.cursor = Ledger.nextCursor start p.read ∧
      ((∀ t ∈ later, t.isPage = true) → (p.unread filter).length < later.length →
        ∃ more a asked rest, later = more ++ .page a asked :: rest ∧
          (p.run filter more).next filter asked = [] ∧
          (p.run filter more).read = p.server.ledger.ledger.matching start filter) := by
  intro filter first
  have hfirst : Pager.Complete start filter first := .before s entries start filter
  refine ⟨?_, ?_⟩
  · rintro earlier a asked later rfl p p'
    obtain ⟨hearlier, hasks, -⟩ := Pager.follows_append.1 hfollows
    have h : p.Complete start filter := hfirst.run hearlier
    have hreceive := AsksPage.receive hasks h.accepting
    refine ⟨p.next filter asked, rfl, congrArg Handled.response hreceive, ?_, ?_, ?_⟩
    · rw [h.next_eq_nil_iff, Pager.unread, Ledger.matching, List.filter_eq_nil_iff]
      simp only [Bool.and_eq_true, decide_eq_true_eq]
    · intro hempty
      show Ledger.nextCursor p.cursor (p.next filter asked) = p.cursor
      rw [hempty, Ledger.nextCursor_nil]
    · intro hpage
      exact (h.numbered.lt_nextCursor hpage).1
  · rintro earlier later rfl p
    obtain ⟨hearlier, hlater⟩ := Pager.follows_append.1 hfollows
    have h : p.Complete start filter := hfirst.run hearlier
    refine ⟨h.read, ?_, h.cursor, ?_⟩
    · rw [h.read]
      exact (h.numbered.matching_ascending start filter).filter _
    · intro hpages hmany
      obtain ⟨more, a, asked, rest, hsplit, -, hempty, hread⟩ :=
        h.exists_empty hlater hpages hmany
      exact ⟨more, a, asked, rest, hsplit, hempty, hread⟩

/-- The first page has room for one record, and is read here as it is sent; the second has a record
that was taken in between, and the third is empty. -/
theorem three_pages_of_a_growing_ledger :
    let entry (topic : String) : Ledger.Entry := ⟨topic, "r", "ann", "[1]"⟩
    let record (id : Nat) (now : Instant) : Ledger.Record :=
      ⟨id, "x", "r", "ann", .list [.int 1], now⟩
    let entries := ["x", "y", "x"].map fun topic => ((⟨0, 0⟩ : Instant), entry topic)
    let ask (query : String) : Arrival :=
      ⟨⟨0, 0⟩, "", ⟨.get, "/api/events?topics=x&" ++ query, [], ""⟩⟩
    let turns : List Turn :=
      [.page (ask "after=-5&limit=0") (some 0), .offer ⟨1, 0⟩ (entry "x"),
       .page (ask "after=1") none,
       .page (ask "after=4&limit=18446744073709551615") (some Text.maxWord64)]
    let first := Pager.before (ofParts {} {} {}) entries (-5)
    first.Follows (some "x") turns ∧
      (first.server.receive (ask "after=-5&limit=0")).response =
        .answer ⟨200, some "application/json", none,
          some ("\x7b\"events\":[\x7b\"id\":1,\"topic\":\"x\",\"correlation_id\":\"r\"," ++
            "\"actor\":\"ann\",\"payload\":[1],\"created_at\":\"1970-01-01T00:00:00Z\"\x7d]," ++
            "\"next_cursor\":1\x7d")⟩ ∧
      (first.run (filterOf (some "x")) turns).read =
        [record 1 ⟨0, 0⟩, record 3 ⟨0, 0⟩, record 4 ⟨1, 0⟩] ∧
      Ledger.nextCursor (-5) (first.run (filterOf (some "x")) turns).read = 4 := by
  intro entry record entries ask turns first
  have hfollows : first.Follows (some "x") turns := by
    refine ⟨⟨rfl, ?_, ⟨?_, ?_, ?_⟩, ?_⟩, trivial, ⟨rfl, ?_, ⟨?_, ?_, ?_⟩, ?_⟩,
      ⟨rfl, ?_, ⟨?_, ?_, ?_⟩, ?_⟩, trivial⟩ <;>
      decide +kernel
  obtain ⟨hpages, hruns⟩ :=
    pages_neither_lose_nor_repeat (ofParts {} {} {}) entries (-5) (some "x") turns hfollows
  obtain ⟨page, hpage, hanswer, -⟩ := hpages [] _ _ _ rfl
  obtain ⟨hread, -, hcursor, -⟩ := hruns turns [] (List.append_nil turns).symm
  have hone : page = [record 1 ⟨0, 0⟩] := hpage.symm.trans (by decide +kernel)
  refine ⟨hfollows, ?_, ?_, ?_⟩
  · rw [hone, Pager.run] at hanswer
    rw [hanswer]
    simp only [Response.answer.injEq, Answer.mk.injEq, Option.some.injEq, true_and]
    decide +kernel
  · rw [hread]
    decide +kernel
  · rw [← hcursor]
    decide +kernel

end Server

end IssueTracker
