/-
  IssueTracker/Proofs/Hub/Mailbox.lean --- each subscriber as if it were alone.

  A `Mailbox` is a private queue: it starts empty, takes an event that is broadcast if its
  owner is registered, wants the topic and has room, and gives its oldest event when its owner
  receives.  It knows of the hub only how many events were sent.  What its owner receives is
  the front of what it took (`received_prefix`), and that is numbered upwards.
-/
import IssueTracker.Proofs.Hub.Run
import Mathlib.Data.List.ReduceOption

set_option autoImplicit false

namespace IssueTracker

/-! ## Mailboxes -/

/-- The queue of one subscriber. -/
structure Mailbox where
  filter : Topic.Filter
  capacity : Nat
  /-- How many events were sent to anybody. -/
  sequence : Nat
  /-- Does it take events? -/
  registered : Bool
  /-- What was taken and not received yet, the oldest first. -/
  queue : List Event
  deriving DecidableEq, Repr, Inhabited

namespace Mailbox

/-- What concerns one subscriber: the broadcasts, and its own calls. -/
inductive Turn where
  | broadcast (topic data : String)
  | unsubscribe
  | drop
  | receive
  deriving DecidableEq, Repr, Inhabited

/-- A mailbox of a new subscriber. -/
def fresh (filter : Topic.Filter) (capacity sequence : Nat) : Mailbox :=
  ⟨filter, capacity, sequence, true, []⟩

/-- Is an event of the topic taken now? -/
def takes (m : Mailbox) (topic : String) : Bool :=
  m.registered && m.filter.passes topic && m.queue.length < m.capacity

/-- The mailbox after a turn.  With the handle goes what is in the queue. -/
def step (m : Mailbox) : Turn → Mailbox
  | .broadcast topic data =>
      { m with
        sequence := m.sequence + 1
        queue := if m.takes topic then m.queue ++ [⟨m.sequence + 1, topic, data⟩] else m.queue }
  | .unsubscribe => { m with registered := false }
  | .drop => { m with registered := false, queue := [] }
  | .receive => { m with queue := m.queue.tail }

/-- What the owner is answered at a turn: something only if it asks. -/
def answer (m : Mailbox) : Turn → List (Option Event)
  | .receive => [m.queue.head?]
  | _ => []

/-- What the owner receives, one answer for each time that it asks. -/
def answers (m : Mailbox) : List Turn → List (Option Event)
  | [] => []
  | turn :: turns => m.answer turn ++ (m.step turn).answers turns

/-- The events that are taken. -/
def taken (m : Mailbox) : List Turn → List Event
  | [] => []
  | .broadcast topic data :: turns =>
      if m.takes topic then
        ⟨m.sequence + 1, topic, data⟩ :: (m.step (.broadcast topic data)).taken turns
      else (m.step (.broadcast topic data)).taken turns
  | turn :: turns => (m.step turn).taken turns

/-- Nothing is taken that comes after the owner has left. -/
theorem taken_of_not_registered {m : Mailbox} (h : m.registered = false) (turns : List Turn) :
    m.taken turns = [] := by
  induction turns generalizing m with
  | nil => rfl
  | cons turn turns ih =>
      cases turn with
      | broadcast topic data =>
          have hno : m.takes topic = false := by simp [takes, h]
          simp only [taken, hno, Bool.false_eq_true, if_false]
          exact ih h
      | unsubscribe => exact ih rfl
      | drop => exact ih rfl
      | receive => exact ih h

/-- What is received is what was in the queue and then what was taken, from the front. -/
theorem received_prefix (m : Mailbox) (turns : List Turn) :
    (m.answers turns).reduceOption <+: m.queue ++ m.taken turns := by
  induction turns generalizing m with
  | nil => exact List.nil_prefix
  | cons turn turns ih =>
      cases turn with
      | broadcast topic data =>
          have hrest := ih (m.step (.broadcast topic data))
          simp only [answers, answer, List.nil_append, taken]
          by_cases htakes : m.takes topic = true
          · simpa [step, htakes] using hrest
          · simpa [step, htakes] using hrest
      | unsubscribe => exact ih (m.step .unsubscribe)
      | drop =>
          have hrest := ih (m.step .drop)
          rw [taken_of_not_registered rfl, List.append_nil] at hrest
          have hnone : ((m.step .drop).answers turns).reduceOption = [] :=
            List.prefix_nil.1 hrest
          simp only [answers, answer, List.nil_append, hnone]
          exact List.nil_prefix
      | receive =>
          have hrest := ih (m.step .receive)
          simp only [answers, answer, List.singleton_append, taken]
          cases hqueue : m.queue with
          | nil =>
              rw [List.head?_nil, List.reduceOption_cons_of_none]
              simpa [step, hqueue] using hrest
          | cons e queue =>
              rw [List.head?_cons, List.reduceOption_cons_of_some, List.cons_append]
              refine List.cons_prefix_cons.2 ⟨rfl, ?_⟩
              simpa [step, hqueue] using hrest

/-- What is taken is numbered upwards, from the events sent before. -/
theorem taken_ascending (m : Mailbox) (turns : List Turn) :
    (m.taken turns).Pairwise (·.sequence < ·.sequence) ∧
      ∀ e ∈ m.taken turns, m.sequence < e.sequence := by
  induction turns generalizing m with
  | nil => exact ⟨List.Pairwise.nil, fun e he => absurd he List.not_mem_nil⟩
  | cons turn turns ih =>
      obtain ⟨hascending, hafter⟩ := ih (m.step turn)
      cases turn with
      | broadcast topic data =>
          have hlater : ∀ e ∈ (m.step (.broadcast topic data)).taken turns,
              m.sequence + 1 < e.sequence := hafter
          simp only [taken]
          split
          · refine ⟨List.pairwise_cons.2 ⟨hlater, hascending⟩, ?_⟩
            intro e he
            rcases List.mem_cons.1 he with rfl | he
            · exact Nat.lt_succ_self _
            · exact Nat.lt_of_succ_lt (hlater e he)
          · exact ⟨hascending, fun e he => Nat.lt_of_succ_lt (hlater e he)⟩
      | unsubscribe => exact ⟨hascending, hafter⟩
      | drop => exact ⟨hascending, hafter⟩
      | receive => exact ⟨hascending, hafter⟩

end Mailbox

end IssueTracker
