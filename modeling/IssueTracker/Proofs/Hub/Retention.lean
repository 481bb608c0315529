/-
  IssueTracker/Proofs/Hub/Retention.lean --- what the hub has kept of all its broadcasts.

  The numbers that a run of calls is given are those of its events (`numbers_eq`), and the
  events are the broadcasts of the run, numbered from one (`events_eq`).  What the hub answers
  about the past is a window of these numbers: it ends with the latest event, and begins
  behind the one that was asked about or behind the last one that is lost, whichever is
  later (`Records.eventsSince_eq`).
-/
import IssueTracker.Proofs.Hub.Run

set_option autoImplicit false

namespace IssueTracker

namespace Hub

variable {config : Config} {sent : List Event} {h : Hub} {e : Event}

/-! ## The broadcasts of a run -/

/-- The topic and data that a call sends. -/
def Op.message? : Op → Option (String × String)
  | broadcast topic data => some (topic, data)
  | _ => none

/-- The topics and data that calls send, in their order. -/
def messages (ops : List Op) : List (String × String) := ops.filterMap Op.message?

/-- The number that a call gives back; only a broadcast does. -/
def Op.number? (h : Hub) : Op → Option Nat
  | broadcast topic data => some (h.broadcast topic data).1
  | _ => none

/-- The numbers that calls give back, one after the other. -/
def numbers (h : Hub) : List Op → List Nat
  | [] => []
  | op :: ops => (op.number? h).toList ++ (h.step op).numbers ops

/-- The events of a run are its messages, numbered on. -/
theorem events_eq (n : Nat) (ops : List Op) :
    events n ops = (messages ops).mapIdx fun i message => ⟨n + i + 1, message.1, message.2⟩ := by
  induction ops generalizing n with
  | nil => rfl
  | cons op ops ih =>
      cases op with
      | broadcast topic data =>
          have hshift : ∀ i, n + 1 + i + 1 = n + (i + 1) + 1 := by omega
          have hmessages : messages (.broadcast topic data :: ops) =
              (topic, data) :: messages ops := rfl
          rw [hmessages, List.mapIdx_cons, events, Op.event?]
          simp only [ih, hshift, Nat.add_zero]
      | _ => exact ih n

theorem length_events (n : Nat) (ops : List Op) :
    (events n ops).length = (messages ops).length := by
  rw [events_eq, List.length_mapIdx]

/-- A broadcast is given the number of its event. -/
theorem numbers_eq (h : Hub) (ops : List Op) :
    h.numbers ops = (events h.sequence ops).map (·.sequence) := by
  induction ops generalizing h with
  | nil => rfl
  | cons op ops ih =>
      cases op with
      | broadcast topic data => exact congrArg (List.cons (h.sequence + 1)) (ih _)
      | receive id =>
          have hrest := ih (h.receive id).2
          rw [sequence_receive] at hrest
          exact hrest
      | _ => exact ih _

/-! ## The past -/

/-- What is not among the first `k` events, and was neither lost nor seen, is the answer. -/
theorem Records.eventsSince_eq (hrec : Records config sent h) (last : Nat) :
    h.eventsSince last = sent.drop (max last (sent.length - max config.ringCapacity 1)) := by
  generalize hlost : sent.length - max config.ringCapacity 1 = lost
  have hkept : h.history.toList = sent.drop lost := by
    rw [hrec.retained, List.rtake, hlost]
  have hcut : max last lost = lost + (last - lost) := by omega
  rw [hcut, ← List.drop_drop, eventsSince, History.since, hkept]
  refine filter_eq_drop ?_ ?_
  · intro e he
    have hfront : e ∈ sent.take last := by
      rw [List.take_drop] at he
      rcases Nat.le_total lost last with hle | hle
      · rw [Nat.add_sub_cancel' hle] at he
        exact List.mem_of_mem_drop he
      · have hempty : (sent.take lost).drop lost = [] :=
          List.drop_eq_nil_of_le (List.length_take_le _ _)
        rw [Nat.sub_eq_zero_of_le hle, Nat.add_zero, hempty] at he
        exact absurd he List.not_mem_nil
    simpa using hrec.le_of_mem_take hfront
  · intro e he
    rw [List.drop_drop] at he
    have hlt := hrec.lt_of_mem_drop he
    rw [decide_eq_true_eq]
    omega

/-- An event has the message that was sent under its number. -/
theorem message_of_mem_events {ops : List Op} (he : e ∈ events 0 ops) :
    (messages ops)[e.sequence - 1]? = some (e.topic, e.data) := by
  rw [events_eq, List.mem_mapIdx] at he
  obtain ⟨i, hi, rfl⟩ := he
  simp [hi]

/-- The history law.  The broadcasts of a run are numbered from one, whoever comes, goes and
receives between them; the hub knows their count, has retained as many of the latest as it has
room for, and answers what came after a number with the messages of a window of numbers: none
if there was no later one, and all that is retained if the next one is lost. -/
theorem past_is_a_window (config : Config) (ops : List Op) :
    let n := (messages ops).length
    let room := max config.ringCapacity 1
    let h := (ofConfig config).run ops
    (ofConfig config).numbers ops = List.range' 1 n ∧
      h.sequence = n ∧
      h.history.size = min n room ∧
      ∀ last,
        (h.eventsSince last).map (·.sequence) =
            List.range' (max last (n - room) + 1) (n - max last (n - room)) ∧
          (∀ e ∈ h.eventsSince last,
            (messages ops)[e.sequence - 1]? = some (e.topic, e.data)) ∧
          (n ≤ last → h.eventsSince last = []) ∧
          (last ≤ n - room → h.eventsSince last = h.history.toList) := by
  intro n room h
  have hrec := Records.of_run config ops
  have hn : (events 0 ops).length = n := length_events 0 ops
  refine ⟨?_, ?_, ?_, fun last => ?_⟩
  · rw [numbers_eq, ← hn]
    exact hrec.numbers
  · rw [← hn]
    exact hrec.sequence_eq
  · rw [← History.length_toList, hrec.retained, List.rtake, List.length_drop, hn]
    omega
  · have hsince : h.eventsSince last = (events 0 ops).drop (max last (n - room)) := by
      rw [← hn]
      exact hrec.eventsSince_eq last
    refine ⟨?_, fun e he => ?_, fun hle => ?_, fun hle => ?_⟩
    · rw [hsince, List.map_drop, hrec.numbers, hn, List.drop_range']
      congr 1
      omega
    · rw [hsince] at he
      exact message_of_mem_events (List.mem_of_mem_drop he)
    · rw [hsince, List.drop_eq_nil_of_le]
      omega
    · rw [hsince, Nat.max_eq_right hle, hrec.retained, List.rtake, hn]

/-- Three broadcasts among subscribers, with room for two: the first is lost. -/
theorem past_of_three_broadcasts :
    let ops : List Op :=
      [.broadcast "t" "1", .subscribe .everything, .broadcast "t" "2", .receive 1, .unsubscribe 1,
        .broadcast "u" "3", .drop 1]
    let h := (ofConfig ⟨2, 1⟩).run ops
    (messages ops).length ≤ 3 ∧ h.eventsSince 3 = [] ∧ h.eventsSince 0 = h.history.toList ∧
      h.eventsSince 0 = [⟨2, "t", "2"⟩, ⟨3, "u", "3"⟩] ∧
      (ofConfig ⟨2, 1⟩).numbers ops = [1, 2, 3] := by
  intro ops h
  obtain ⟨hnumbers, -, -, hpast⟩ := past_is_a_window ⟨2, 1⟩ ops
  exact ⟨by decide, (hpast 3).2.2.1 (by decide), (hpast 0).2.2.2 (by decide), by decide,
    hnumbers⟩

end Hub

end IssueTracker
