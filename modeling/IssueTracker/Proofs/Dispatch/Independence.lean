/-
  IssueTracker/Proofs/Dispatch/Independence.lean --- no sink depends on what the others do.

  Events are handed out one after the other, and at each of them the ledger and the bus may take
  what they are offered, refuse it, or never answer.  `handOut_eq` tells all that comes of it: the
  ledger, the bus and the hub each get the events that have a JSON form, and the time that passes
  is that of the offers without an answer.  What one of the three is after that is told without the
  other two, so that nothing they do can matter to it.
-/
import IssueTracker.Dispatch.Basic
import IssueTracker.Proofs.Hub.Run
import IssueTracker.Settings.Basic

set_option autoImplicit false

namespace IssueTracker

namespace Sink

variable {ω σ : Type}

/-- What comes of offers, each to the sink as it is at the time: the deliveries, and the state of
the sink after them. -/
def offerAll : List (Sink ω σ × ω) → σ → List Delivery × σ
  | [], state => ([], state)
  | (sink, o) :: rest, state =>
      let (delivery, state) := sink.offer o state
      let (deliveries, state) := offerAll rest state
      (delivery :: deliveries, state)

end Sink

namespace Dispatch

variable {α β : Type} {c : Call} {payload : Json}

/-! ## What an event is to each of the three -/

/-- The entry for the ledger, if the payload has a JSON form. -/
def Call.forLedger? (c : Call) : Option Ledger.Entry :=
  c.payload.map fun payload => ⟨c.topic, c.correlationId, c.actor, payload.render⟩

/-- The message for the bus. -/
def Call.forBus? (c : Call) : Option Bus.Message :=
  c.payload.map fun payload => ⟨c.topic, payload.render⟩

/-- The broadcast of a message. -/
def broadcast (m : Bus.Message) : Hub.Op := .broadcast m.topic m.payload

/-- The entry and the message of an event have one topic and one text. -/
theorem forBus?_eq (c : Call) :
    c.forBus? = c.forLedger?.map fun e => ⟨e.topic, e.payload⟩ := by
  unfold Call.forBus? Call.forLedger?
  rw [Option.map_map]
  rfl

/-! ## Runs -/

/-- An event to hand out, with the ledger and the bus as they are at the time. -/
structure Attempt (α β : Type) where
  call : Call
  ledger : Sink Ledger.Entry α
  bus : Sink Bus.Message β

variable {attempts rest : List (Attempt α β)} {a : Attempt α β} {s : State α β}

/-- What the ledger is offered in a run. -/
def toLedger (attempts : List (Attempt α β)) : List (Sink Ledger.Entry α × Ledger.Entry) :=
  attempts.filterMap fun a => a.call.forLedger?.map (a.ledger, ·)

/-- What the bus is offered in a run. -/
def toBus (attempts : List (Attempt α β)) : List (Sink Bus.Message β × Bus.Message) :=
  attempts.filterMap fun a => a.call.forBus?.map (a.bus, ·)

/-- The events of a run that have a JSON form. -/
def messages (attempts : List (Attempt α β)) : List Bus.Message :=
  (attempts.map (·.call)).filterMap Call.forBus?

/-- Hands out events one after the other; gives the seconds that passed. -/
def handOut (timeout : Nat) : List (Attempt α β) → State α β → Nat × State α β
  | [], s => (0, s)
  | a :: rest, s =>
      let (first, s) := run a.ledger a.bus timeout a.call s
      let (others, s) := handOut timeout rest s
      (first + others, s)

/-- An event without a JSON form reaches nobody. -/
theorem handOut_cons_of_none (h : a.call.payload = none) (timeout : Nat) (s : State α β) :
    handOut timeout (a :: rest) s = handOut timeout rest s := by
  have hrun : run a.ledger a.bus timeout a.call s = (0, s) := by
    unfold run
    rw [h]
  simp only [handOut, hrun, Nat.zero_add]

/-- An event is offered to the ledger and to the bus, and broadcast, whatever becomes of the
offers. -/
theorem run_of_some {timeout : Nat} {ledger : Sink Ledger.Entry α} {bus : Sink Bus.Message β}
    (h : c.payload = some payload) (s : State α β) :
    run ledger bus timeout c s =
      (waited timeout
          (ledger.offer ⟨c.topic, c.correlationId, c.actor, payload.render⟩ s.ledger).1 +
        waited timeout (bus.offer ⟨c.topic, payload.render⟩ s.bus).1,
        ⟨(ledger.offer ⟨c.topic, c.correlationId, c.actor, payload.render⟩ s.ledger).2,
          (bus.offer ⟨c.topic, payload.render⟩ s.bus).2,
          s.hub.step (broadcast ⟨c.topic, payload.render⟩)⟩) := by
  unfold run
  rw [h]
  rfl

theorem toLedger_cons_of_some (h : a.call.payload = some payload) :
    toLedger (a :: rest) =
      (a.ledger, ⟨a.call.topic, a.call.correlationId, a.call.actor, payload.render⟩) ::
        toLedger rest := by
  simp [toLedger, Call.forLedger?, h]

theorem toBus_cons_of_some (h : a.call.payload = some payload) :
    toBus (a :: rest) = (a.bus, ⟨a.call.topic, payload.render⟩) :: toBus rest := by
  simp [toBus, Call.forBus?, h]

theorem messages_cons_of_some (h : a.call.payload = some payload) :
    messages (a :: rest) = ⟨a.call.topic, payload.render⟩ :: messages rest := by
  simp [messages, Call.forBus?, h]

/-- An event without a JSON form is no offer, and no message. -/
theorem offers_cons_of_none (h : a.call.payload = none) (rest : List (Attempt α β)) :
    toLedger (a :: rest) = toLedger rest ∧ toBus (a :: rest) = toBus rest ∧
      messages (a :: rest) = messages rest := by
  simp [toLedger, toBus, messages, Call.forLedger?, Call.forBus?, h]

/-- The time waited for a sink is that of its offers without an answer. -/
theorem waited_add_mul_count (timeout : Nat) (d : Delivery) (ds : List Delivery) :
    waited timeout d + timeout * ds.count .stalled = timeout * (d :: ds).count .stalled := by
  cases d with
  | taken => simp [waited]
  | refused => simp [waited]
  | stalled =>
      rw [List.count_cons_self, Nat.mul_succ, Nat.add_comm]
      rfl

/-- All that comes of a run, for each of the three apart. -/
theorem handOut_eq (timeout : Nat) (attempts : List (Attempt α β)) (s : State α β) :
    handOut timeout attempts s =
      (timeout * (Sink.offerAll (toLedger attempts) s.ledger).1.count .stalled +
          timeout * (Sink.offerAll (toBus attempts) s.bus).1.count .stalled,
        ⟨(Sink.offerAll (toLedger attempts) s.ledger).2, (Sink.offerAll (toBus attempts) s.bus).2,
          s.hub.run ((messages attempts).map broadcast)⟩) := by
  induction attempts generalizing s with
  | nil => rfl
  | cons a rest ih =>
      cases hpayload : a.call.payload with
      | none =>
          obtain ⟨hledger, hbus, hmessages⟩ := offers_cons_of_none hpayload rest
          rw [handOut_cons_of_none hpayload, hledger, hbus, hmessages, ih]
      | some payload =>
          rw [toLedger_cons_of_some hpayload, toBus_cons_of_some hpayload,
            messages_cons_of_some hpayload, handOut, run_of_some hpayload]
          simp only [ih, Sink.offerAll, List.map_cons, Hub.run, ← waited_add_mul_count]
          rw [Nat.add_add_add_comm]

/-- Events without a JSON form may as well not be handed out. -/
theorem handOut_filter (timeout : Nat) (attempts : List (Attempt α β)) (s : State α β) :
    handOut timeout (attempts.filter (·.call.payload.isSome)) s = handOut timeout attempts s := by
  induction attempts generalizing s with
  | nil => rfl
  | cons a rest ih =>
      cases hpayload : a.call.payload with
      | none =>
          rw [List.filter_cons_of_neg (by simp [hpayload]), handOut_cons_of_none hpayload, ih]
      | some payload =>
          rw [List.filter_cons_of_pos (by simp [hpayload]), handOut, handOut]
          simp only [ih]

/-- Each message takes one sequence number. -/
theorem sequence_run_broadcast (ms : List Bus.Message) (h : Hub) :
    (h.run (ms.map broadcast)).sequence = h.sequence + ms.length := by
  induction ms generalizing h with
  | nil => rfl
  | cons m ms ih =>
      rw [List.map_cons, Hub.run, ih, List.length_cons, Nat.add_comm ms.length, ← Nat.add_assoc]
      rfl

/-! ## Two runs -/

/-- The messages are those of the calls alone. -/
theorem messages_congr {α' β' : Type} {others : List (Attempt α' β')}
    (h : others.map (·.call) = attempts.map (·.call)) : messages others = messages attempts :=
  congrArg (List.filterMap Call.forBus?) h

/-- What the ledger is offered depends on the calls and on the ledger alone. -/
theorem toLedger_congr {β' : Type} {others : List (Attempt α β')}
    (h : others.map (fun a => (a.call, a.ledger)) = attempts.map fun a => (a.call, a.ledger)) :
    toLedger others = toLedger attempts := by
  have hoffers := congrArg (List.filterMap fun p => p.1.forLedger?.map (p.2, ·)) h
  rw [List.filterMap_map, List.filterMap_map] at hoffers
  exact hoffers

/-- What the bus is offered depends on the calls and on the bus alone. -/
theorem toBus_congr {α' : Type} {others : List (Attempt α' β)}
    (h : others.map (fun a => (a.call, a.bus)) = attempts.map fun a => (a.call, a.bus)) :
    toBus others = toBus attempts := by
  have hoffers := congrArg (List.filterMap fun p => p.1.forBus?.map (p.2, ·)) h
  rw [List.filterMap_map, List.filterMap_map] at hoffers
  exact hoffers

/-- The three are offered the same events: those with a JSON form, each once, in order, and in one
text. -/
theorem offers_eq_messages (attempts : List (Attempt α β)) :
    (toLedger attempts).map (·.2) = (attempts.map (·.call)).filterMap Call.forLedger? ∧
      (toLedger attempts).map (fun o => (⟨o.2.topic, o.2.payload⟩ : Bus.Message)) =
        messages attempts ∧
      (toBus attempts).map (·.2) = messages attempts := by
  refine ⟨?_, ?_, ?_⟩
  · rw [toLedger, List.map_filterMap, List.filterMap_map]
    congr 1
    funext a
    simp [Function.comp_def]
  · rw [toLedger, messages, List.map_filterMap, List.filterMap_map]
    congr 1
    funext a
    simp [forBus?_eq, Function.comp_def]
  · rw [toBus, messages, List.map_filterMap, List.filterMap_map]
    congr 1
    funext a
    simp [Function.comp_def]

/-- Events are handed out one after the other, and at each of them the ledger and the bus may do
anything: take the offer, refuse it, or never answer.  The ledger and the bus are offered, and the
hub broadcasts, exactly the events whose payload has a JSON form, each once and in their order, and
all three have the same text.  An event without a JSON form reaches nobody.  What the sinks do
decides the time that passes, which is the timeout for each offer without an answer, and
nothing else: the hub is the same after two runs with the same events, the ledger does not
depend on the bus and the hub, and the bus does not depend on the ledger and the hub. -/
theorem sinks_do_not_matter_to_each_other (settings : Settings) (attempts : List (Attempt α β))
    (s : State α β) :
    let final := handOut settings.sinkTimeout attempts s
    let sent := messages attempts
    let recorded := Sink.offerAll (toLedger attempts) s.ledger
    let published := Sink.offerAll (toBus attempts) s.bus
    ((toLedger attempts).map (·.2) = (attempts.map (·.call)).filterMap Call.forLedger? ∧
      (toLedger attempts).map (fun o => (⟨o.2.topic, o.2.payload⟩ : Bus.Message)) = sent ∧
      (toBus attempts).map (·.2) = sent) ∧
    final.2 = ⟨recorded.2, published.2, s.hub.run (sent.map broadcast)⟩ ∧
    final.2.hub.sequence = s.hub.sequence + sent.length ∧
    handOut settings.sinkTimeout (attempts.filter (·.call.payload.isSome)) s = final ∧
    final.1 = max settings.sinkTimeoutSecs 1 *
      (recorded.1.count .stalled + published.1.count .stalled) ∧
    (∀ (α' β' : Type) (others : List (Attempt α' β')) (ledger : α') (bus : β'),
      others.map (·.call) = attempts.map (·.call) →
        (handOut settings.sinkTimeout others ⟨ledger, bus, s.hub⟩).2.hub = final.2.hub) ∧
    (∀ (β' : Type) (others : List (Attempt α β')) (bus : β') (hub : Hub),
      others.map (fun a => (a.call, a.ledger)) = attempts.map (fun a => (a.call, a.ledger)) →
        (handOut settings.sinkTimeout others ⟨s.ledger, bus, hub⟩).2.ledger = final.2.ledger) ∧
    ∀ (α' : Type) (others : List (Attempt α' β)) (ledger : α') (hub : Hub),
      others.map (fun a => (a.call, a.bus)) = attempts.map (fun a => (a.call, a.bus)) →
        (handOut settings.sinkTimeout others ⟨ledger, s.bus, hub⟩).2.bus = final.2.bus := by
  intro final sent recorded published
  have hfinal : final = _ := handOut_eq settings.sinkTimeout attempts s
  have hstate : final.2 = ⟨recorded.2, published.2, s.hub.run (sent.map broadcast)⟩ := by
    rw [hfinal]
  refine ⟨offers_eq_messages attempts, hstate, ?_, handOut_filter _ attempts s, ?_, ?_, ?_, ?_⟩
  · rw [hstate]
    exact sequence_run_broadcast sent s.hub
  · rw [hfinal, ← Nat.mul_add]
    rfl
  · intro α' β' others ledger bus hcalls
    rw [hstate, handOut_eq, messages_congr hcalls]
  · intro β' others bus hub hsame
    rw [hstate, handOut_eq, toLedger_congr hsame]
  · intro α' others ledger hub hsame
    rw [hstate, handOut_eq, toBus_congr hsame]

/-- One offer to the bus and one to the ledger are never answered, in a run with an event that has
no JSON form; with a timeout of zero each is waited for one second, and the hub has both other
events, as in a run in which all goes well. -/
theorem two_offers_without_answer :
    let ledger (x : Availability) : Sink Ledger.Entry LedgerSink :=
      ⟨fun e l => LedgerSink.offer ⟨0, 0⟩ e { l with availability := x }⟩
    let bus (x : Availability) : Sink Bus.Message Bus :=
      ⟨fun m b => Bus.offer m { b with availability := x }⟩
    let first : Call := ⟨"t.a", "r1", "ann", some (.text "x")⟩
    let second : Call := ⟨"t.b", "r2", "bob", none⟩
    let third : Call := ⟨"t.c", "r3", "ann", some (.int 7)⟩
    let run (xs : List (Call × Availability × Availability)) : Nat × State LedgerSink Bus :=
      handOut ({ sinkTimeoutSecs := 0 } : Settings).sinkTimeout
        (xs.map fun x => ⟨x.1, ledger x.2.1, bus x.2.2⟩) ⟨{}, {}, .ofConfig {}⟩
    let rough :=
      run [(first, .accepting, .stalled), (second, .stalled, .stalled), (third, .stalled, .failing)]
    let calm := run [(first, .accepting, .accepting), (second, .accepting, .accepting),
      (third, .accepting, .accepting)]
    let calmBus := run [(first, .accepting, .accepting), (second, .stalled, .accepting),
      (third, .stalled, .accepting)]
    let calmLedger := run [(first, .accepting, .stalled), (second, .accepting, .stalled),
      (third, .accepting, .failing)]
    rough.1 = 2 ∧ rough.2.hub.sequence = 2 ∧ calm.2.hub = rough.2.hub ∧
      calmBus.2.ledger = rough.2.ledger ∧ calmLedger.2.bus = rough.2.bus := by
  intro ledger bus first second third run rough calm calmBus calmLedger
  obtain ⟨-, -, hsequence, -, hwaited, hhub, hledger, hbus⟩ :=
    sinks_do_not_matter_to_each_other ({ sinkTimeoutSecs := 0 } : Settings)
      [⟨first, ledger .accepting, bus .stalled⟩, ⟨second, ledger .stalled, bus .stalled⟩,
        ⟨third, ledger .stalled, bus .failing⟩]
      ⟨{}, {}, .ofConfig {}⟩
  refine ⟨hwaited.trans ?_, hsequence, hhub _ _ _ _ _ rfl, hledger _ _ _ _ rfl, hbus _ _ _ _ rfl⟩
  decide +kernel

end Dispatch

end IssueTracker
