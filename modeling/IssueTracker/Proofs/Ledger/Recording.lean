/-
  IssueTracker/Proofs/Ledger/Recording.lean --- what a ledger holds of all that it was offered.

  `recorded` says it without a ledger: each entry whose payload is JSON becomes a record, and the
  records are numbered in the order of the entries.  A ledger goes on with just these
  (`records_offered`), so that its numbers have no gaps, and a page, which it finds by halving, is
  what a look at each record finds.
-/
import IssueTracker.Proofs.Ledger.Pages

set_option autoImplicit false

namespace IssueTracker

namespace Ledger

/-- The records that entries become, numbered on from `n`.  An entry whose payload is not JSON
becomes none, and takes no number. -/
def recorded (n : Nat) : List (Instant × Entry) → List Record
  | [] => []
  | (now, e) :: rest =>
      match Json.ofText e.payload with
      | .ok payload =>
          ⟨n + 1, e.topic, e.correlationId, e.actor, payload, now⟩ :: recorded (n + 1) rest
      | .error _ => recorded n rest

variable {e : Entry} {payload : Json} {f : Json.Fault}

/-- An entry whose payload is JSON is recorded under the next number. -/
theorem append_of_ok (h : Json.ofText e.payload = .ok payload) (now : Instant) (l : Ledger) :
    l.append now e =
      .ok (l.latest + 1,
        ⟨l.records.push ⟨l.latest + 1, e.topic, e.correlationId, e.actor, payload, now⟩⟩) := by
  rw [append, h]

/-- Any other entry is refused. -/
theorem append_of_error (h : Json.ofText e.payload = .error f) (now : Instant) (l : Ledger) :
    l.append now e = .error f := by
  rw [append, h]

theorem latest_push (records : Array Record) (r : Record) : latest ⟨records.push r⟩ = r.id := by
  rw [latest, Array.back?_push, Option.elim_some]

end Ledger

namespace LedgerSink

variable {state : LedgerSink} {now : Instant} {e : Ledger.Entry}

/-- What the ledger answers to entries that it is offered one after the other: the number of the
record, or what is wrong with the payload. -/
def answers : List (Instant × Ledger.Entry) → LedgerSink → List (Except Json.Fault Nat)
  | [], _ => []
  | (now, e) :: rest, state =>
      (state.ledger.append now e).map (·.1) :: answers rest (state.offer now e).2

/-! ## One entry -/

/-- What is recorded is kept. -/
theorem offer_of_ok {id : Nat} {l : Ledger} (haccepting : state.availability = .accepting)
    (happend : state.ledger.append now e = .ok (id, l)) :
    (state.offer now e).2 = { state with ledger := l } := by
  simp only [offer, haccepting, happend]

/-- What is refused leaves the ledger as it was. -/
theorem offer_of_error {f : Json.Fault} (happend : state.ledger.append now e = .error f) :
    (state.offer now e).2 = state := by
  unfold offer
  cases state.availability with
  | accepting => simp only [happend]
  | failing => rfl
  | stalled => rfl

/-! ## Many entries -/

theorem offered_append (first second : List (Instant × Ledger.Entry)) (state : LedgerSink) :
    offered (first ++ second) state = offered second (offered first state) := by
  induction first generalizing state with
  | nil => rfl
  | cons x first ih => exact ih _

/-- The records of the entries go behind those that are there, and the answers are their numbers,
with a refusal for each entry whose payload is not JSON. -/
theorem records_offered (haccepting : state.availability = .accepting)
    (entries : List (Instant × Ledger.Entry)) :
    (offered entries state).ledger.records.toList =
        state.ledger.records.toList ++ Ledger.recorded state.ledger.latest entries ∧
      (answers entries state).filterMap Except.toOption =
        (Ledger.recorded state.ledger.latest entries).map (·.id) ∧
      (answers entries state).map Except.isOk =
        entries.map fun x => (Json.ofText x.2.payload).isOk := by
  induction entries generalizing state with
  | nil => simp [offered, answers, Ledger.recorded]
  | cons x rest ih =>
      obtain ⟨now, e⟩ := x
      simp only [offered, answers, Ledger.recorded]
      cases hpayload : Json.ofText e.payload with
      | ok payload =>
          have happend := Ledger.append_of_ok hpayload now state.ledger
          have hoffer := offer_of_ok haccepting happend
          have hafter : (state.offer now e).2.availability = .accepting := by
            rw [hoffer]
            exact haccepting
          obtain ⟨hrecords, hnumbers, hdone⟩ := ih hafter
          rw [hoffer] at hrecords hnumbers hdone ⊢
          rw [Ledger.latest_push] at hrecords hnumbers
          refine ⟨?_, ?_, ?_⟩
          · rw [hrecords, Array.toList_push, List.append_assoc, List.singleton_append]
          · rw [happend, List.map_cons, ← hnumbers]
            rfl
          · rw [happend, List.map_cons, List.map_cons, hdone, hpayload]
            rfl
      | error f =>
          have happend := Ledger.append_of_error hpayload now state.ledger
          obtain ⟨hrecords, hnumbers, hdone⟩ := ih haccepting
          rw [offer_of_error happend]
          refine ⟨hrecords, ?_, ?_⟩
          · rw [happend, ← hnumbers]
            rfl
          · rw [happend, List.map_cons, List.map_cons, hdone, hpayload]
            rfl

/-- Whatever entries are offered, the ledger holds a record of each whose payload is JSON, with all
that was offered of it, in their order.  The records are numbered from one without gaps, and these
numbers were answered; an entry is refused if and only if its payload is not JSON, and then it takes
no number and leaves the ledger as it was.  The latest number is the count of records, and what
is offered later goes behind the records that are there.  A page has the first records, as many as
are asked for, of those above the cursor whose topic the filter passes. -/
theorem ledger_holds_what_is_json (entries : List (Instant × Ledger.Entry)) :
    let state := offered entries {}
    let records := state.ledger.records.toList
    records = Ledger.recorded 0 entries ∧
      (answers entries {}).filterMap Except.toOption = List.range' 1 records.length ∧
      (answers entries {}).map Except.isOk =
        entries.map (fun x => (Json.ofText x.2.payload).isOk) ∧
      records.map (·.id) = List.range' 1 records.length ∧
      state.latest = .ok records.length ∧
      (∀ now e f, state.ledger.append now e = .error f → (state.offer now e).2 = state) ∧
      (∀ later, records <+: (offered (entries ++ later) {}).ledger.records.toList) ∧
      ∀ after filter limit, state.query after filter limit =
        .ok ((records.filter fun r => after < r.id && filter.passes r.topic).take limit) := by
  intro state records
  have hempty : ({} : LedgerSink).availability = .accepting := rfl
  obtain ⟨haccepting, hnumbered⟩ := offered_numbered entries hempty Ledger.numbered_empty
  obtain ⟨hrecords, hnumbers, hdone⟩ := records_offered hempty entries
  have hrecords : records = Ledger.recorded 0 entries := hrecords
  have hids : records.map (·.id) = List.range' 1 records.length := by
    rw [Array.length_toList]
    exact hnumbered
  refine ⟨hrecords, ?_, hdone, hids, ?_, fun now e f => offer_of_error, fun later => ?_,
    fun after filter limit => ?_⟩
  · rw [← hids, hrecords]
    exact hnumbers
  · rw [latest, haccepting, Array.length_toList]
    exact congrArg Except.ok hnumbered.latest_eq
  · rw [offered_append, (records_offered haccepting later).1]
    exact List.prefix_append _ _
  · rw [query, haccepting]
    exact congrArg Except.ok (hnumbered.query_eq after filter limit)

/-- The second of three entries is refused, and so is a fourth one, which leaves the ledger as it
was.  All records are above a negative cursor; the filter passes the second one. -/
theorem second_of_three_is_refused :
    let t : Instant := ⟨0, 0⟩
    let entry (topic payload : String) : Ledger.Entry := ⟨topic, "req", "ann", payload⟩
    let entries := [(t, entry "a.b" "[]"), (t, entry "a.b" "nope"), (⟨1, 0⟩, entry "a.c" "7")]
    let state := offered entries {}
    answers entries {} = [.ok 1, .error .malformed, .ok 2] ∧
      state.ledger.append t (entry "a.b" "[") = .error .malformed ∧
        (state.offer t (entry "a.b" "[")).2 = state ∧
        state.query (-5) ⟨["*.c"]⟩ 3 = .ok [⟨2, "a.c", "req", "ann", .int 7, ⟨1, 0⟩⟩] := by
  intro t entry entries state
  obtain ⟨-, -, -, -, -, hrefused, -, hquery⟩ := ledger_holds_what_is_json entries
  have happend : state.ledger.append t (entry "a.b" "[") = .error .malformed :=
    Ledger.append_of_error (by decide +kernel) t state.ledger
  refine ⟨by decide +kernel, happend, hrefused t _ _ happend, ?_⟩
  rw [hquery]
  decide +kernel

end LedgerSink

end IssueTracker
